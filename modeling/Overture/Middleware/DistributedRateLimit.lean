import Overture.Lib.StepLaws
import Mathlib.Logic.Function.Basic

/-!
# The limit on the rate of requests

`checkLimit` counts the requests in a window of the clock. As the sliding window it is described as, it has to keep the
limit in every stretch of time of the window's length.
-/

namespace Overture.DistributedRateLimit

open StepLaws List Function

inductive Window where
  | second
  | minute
  | hour
  | day
  | other

/-- The nanoseconds for which the key of the window stays the same. -/
def Window.length : Window → Int
  | second | other => 1000000000
  | minute => 60 * 1000000000
  | hour => 3600 * 1000000000
  | day => 86400 * 1000000000

def getWindowTTL : Window → Int
  | .other => 300 * 1000000000
  | w => 2 * w.length

/-- The counters with the times at which they expire, and the times of the admitted requests. -/
structure State where
  now : Int := 0
  counters : Int → Nat × Int := fun _ => (0, 0)
  admitted : List Int := []

variable (w : Window) (zone : Int) (limit : Nat)

/-- The number of the window in local time, which the text of the key spells. -/
def getWindowKey (t : Int) : Int := (t + zone * 1000000000) / w.length

def live (counter : Nat × Int) (t : Int) : Nat := if t < counter.2 then counter.1 else 0

def State.current (s : State) (t : Int) : Nat := live (s.counters (getWindowKey w zone t)) t

/-- Only a new counter gets a time to live. -/
def increment (counter : Nat × Int) (t : Int) : Nat × Int :=
  (live counter t + 1, if live counter t = 0 then t + getWindowTTL w else counter.2)

/-- A request arrives so many nanoseconds after the one before it. -/
def checkLimit (s : State) (gap : Nat) : State :=
  let now := s.now + gap
  let key := getWindowKey w zone now
  if limit ≤ s.current w zone now then { s with now }
  else ⟨now, update s.counters key (increment w (s.counters key) now), now :: s.admitted⟩

/-- How many were admitted in the window length from the time on. -/
def State.within (s : State) (start : Int) : Nat :=
  s.admitted.countP fun t => start ≤ t ∧ t < start + w.length

def State.recent (s : State) (t : Int) : Nat := s.within w (t + 1 - w.length)

def State.inWindow (s : State) (t : Int) : Nat :=
  s.admitted.countP fun a => getWindowKey w zone a = getWindowKey w zone t

/-- The limit is kept in every stretch, and a request is refused only if so many were admitted before it. -/
def Slides (s : State) (gap : Nat) : Prop :=
  (∀ start, (checkLimit w zone limit s gap).within w start ≤ limit) ∧
    (limit ≤ s.current w zone (s.now + gap) → limit ≤ s.recent w (s.now + gap))

/-- If as many as the limit were admitted lately, it was in the window of the clock. -/
def Settled (s : State) (gap : Nat) : Prop :=
  limit ≤ s.recent w (s.now + gap) → limit ≤ s.inWindow w zone (s.now + gap)

structure Sound (s : State) : Prop where
  limited : ∀ start, s.within w start ≤ limit
  past : ∀ t ∈ s.admitted, t ≤ s.now
  counted : ∀ t, s.current w zone t = s.inWindow w zone t

variable {w zone limit} {s : State}

theorem lt_of_same_key {t a : Int} (h : getWindowKey w zone t = getWindowKey w zone a) : t < a + w.length := by
  rw [getWindowKey, getWindowKey] at h
  cases w <;> simp only [Window.length] at h ⊢ <;> omega

namespace Sound

variable (hs : Sound w zone limit s) (gap : Nat)
include hs

theorem past_arrival : ∀ t ∈ s.admitted, t ≤ s.now + gap := by
  intro t ht
  have hnow := hs.past t ht
  omega

theorem le_recent {p : Int → Bool} (h : ∀ t, p t = true → s.now + gap < t + w.length) :
    s.admitted.countP p ≤ s.recent w (s.now + gap) := by
  apply countP_mono_left
  intro t ht hp
  have hpast := hs.past_arrival gap t ht
  have hnear := h t hp
  simp only [decide_eq_true_eq]
  omega

/-- An arrival keeps the limit in all stretches if it keeps it in the one that ends with it. -/
theorem slides_iff : Slides w zone limit s gap ↔ Settled w zone limit s gap := by
  have hle : s.inWindow w zone (s.now + gap) ≤ s.recent w (s.now + gap) :=
    hs.le_recent gap fun t hkey => lt_of_same_key (of_decide_eq_true hkey).symm
  rw [Slides, Settled, hs.counted, and_iff_left (fun h => Nat.le_trans h hle), checkLimit, hs.counted]
  split_ifs with hfull
  · exact iff_of_true hs.limited fun _ => hfull
  simp only [State.within, countP_cons, decide_eq_true_eq]
  constructor
  · intro h hrecent
    have hlength : 0 < w.length := by cases w <;> decide
    have hend := h (s.now + gap + 1 - w.length)
    rw [if_pos (by omega)] at hend
    exact absurd hrecent (Nat.not_le_of_lt hend)
  · intro h start
    split_ifs with hin
    · refine Nat.lt_of_le_of_lt (hs.le_recent gap fun t ht => ?_) (Nat.lt_of_not_le (mt h hfull))
      have hstart := of_decide_eq_true ht
      omega
    · exact hs.limited start

/-- A counter that counts outlives its window. -/
theorem live_increment {now t : Int} (hkey : getWindowKey w zone now = getWindowKey w zone t) :
    live (increment w (s.counters (getWindowKey w zone t)) now) t = s.current w zone t + 1 := by
  have hsame : live (s.counters (getWindowKey w zone t)) now = s.current w zone t := by
    rw [← hkey]
    change s.current w zone now = _
    rw [hs.counted, hs.counted, State.inWindow, State.inWindow, hkey]
  have hnear := lt_of_same_key hkey.symm
  have httl : w.length ≤ getWindowTTL w := by cases w <;> decide
  rw [increment, hsame, live]
  apply if_pos
  dsimp only
  split_ifs with hzero
  · omega
  · by_contra hexpired
    exact hzero (if_neg hexpired)

theorem checkLimit (h : Settled w zone limit s gap) : Sound w zone limit (checkLimit w zone limit s gap) := by
  refine ⟨((hs.slides_iff gap).mpr h).1, ?_, ?_⟩ <;> rw [DistributedRateLimit.checkLimit]
  all_goals split_ifs
  · exact hs.past_arrival gap
  · exact forall_mem_cons.mpr ⟨Int.le_refl _, hs.past_arrival gap⟩
  · exact hs.counted
  · intro t
    simp only [State.current, State.inWindow, countP_cons, decide_eq_true_eq]
    split_ifs with hkey
    · rw [hkey, update_self, hs.live_increment hkey, hs.counted]
      rfl
    · rw [update_of_ne (Ne.symm hkey)]
      exact hs.counted t

end Sound

/-- What an arrival keeps in any case. -/
structure Counts (w : Window) (zone : Int) (limit : Nat) (s : State) : Prop where
  sound : ∀ n, s.admitted.length ≤ n → Sound w zone n s
  kept : ∀ t, s.inWindow w zone t ≤ limit

theorem Counts.checkLimit (hs : Counts w zone limit s) (gap : Nat) :
    Counts w zone limit (checkLimit w zone limit s gap) := by
  have hcounted := (hs.sound _ (Nat.le_refl _)).counted
  rw [DistributedRateLimit.checkLimit]
  split_ifs with hfull
  · refine ⟨fun n hn => ?_, hs.kept⟩
    have hsound := hs.sound n hn
    exact ⟨hsound.limited, hsound.past_arrival gap, hsound.counted⟩
  refine ⟨fun n hn => ?_, fun t => ?_⟩
  · have hfits (p : Int → Bool) : ¬n ≤ s.admitted.countP p := Nat.not_le_of_lt (Nat.lt_of_le_of_lt countP_le_length hn)
    have hnext := (hs.sound n (Nat.le_of_lt hn)).checkLimit gap fun h => absurd h (hfits _)
    rwa [DistributedRateLimit.checkLimit, hcounted, State.inWindow, if_neg (hfits _)] at hnext
  · simp only [State.inWindow, countP_cons, decide_eq_true_eq]
    split_ifs with hkey
    · rw [hcounted, State.inWindow, hkey] at hfull
      exact Nat.lt_of_not_le hfull
    · exact hs.kept t

/-- A stretch meets the window it starts in and the next one. -/
theorem within_le (w : Window) (zone : Int) (s : State) (start : Int) :
    s.within w start ≤ s.inWindow w zone start + s.inWindow w zone (start + w.length) := by
  simp only [State.within, State.inWindow]
  induction s.admitted with
  | nil => simp
  | cons t l ih =>
    have hnear : start ≤ t ∧ t < start + w.length → getWindowKey w zone t = getWindowKey w zone start ∨
        getWindowKey w zone t = getWindowKey w zone (start + w.length) := by
      cases w <;> simp only [getWindowKey, Window.length] <;> omega
    simp only [countP_cons, decide_eq_true_eq]
    grind

/-- No window of the clock ever has more than the limit, and no stretch of its length more than twice the limit. -/
theorem admitted_le_twice (w : Window) (zone : Int) (limit : Nat) (gaps : List Nat) :
    let s := StepLaws.after (checkLimit w zone limit) {} gaps
    (∀ t, s.inWindow w zone t ≤ limit) ∧ ∀ start, s.within w start ≤ 2 * limit := by
  intro s
  have hs : Counts w zone limit s := by
    induction gaps with
    | nil =>
      exact ⟨fun n _ => ⟨fun _ => Nat.zero_le _, by simp [s, StepLaws.after], fun _ => ite_self 0⟩, fun _ => Nat.zero_le _⟩
    | cons gap past ih => exact ih.checkLimit gap
  refine ⟨hs.kept, fun start => ?_⟩
  have hsplit := within_le w zone s start
  have hfirst := hs.kept start
  have hsecond := hs.kept (start + w.length)
  omega

end Overture.DistributedRateLimit
