import Overture.Lib.Json.Parse

/-!
# Printing and reading are inverse

A tree is well formed when its leaves are spelled as the grammar asks. Reading the print
of a well-formed tree gives the tree back, so the print determines the tree.
-/

namespace Json

open List Value

/-- The inside of a string: the scanner reads it up to the closing quote, whatever comes after. -/
def IsRaw (raw : Text) : Prop := ∀ rest, scanString (raw ++ '\x22' :: rest) = some (raw, rest)

def isEnd (c : Char) : Bool := isGap c || c == ',' || c == ']' || c == '\x7d'

def Ends (rest : Text) : Prop := ∀ c ∈ rest.head?, isEnd c = true

def IsNumber (lit : Text) : Prop :=
  (∃ c l, lit = c :: l ∧ (c = '-' ∨ c.isDigit = true)) ∧
    ∀ rest, Ends rest → scanNumber (lit ++ rest) = some (lit, rest)

def IsGap (gap : Text) : Prop := ∀ c ∈ gap, isGap c = true

mutual

def Value.WF : Value → Prop
  | .num lit => IsNumber lit
  | .str raw => IsRaw raw
  | .emptyArr gap => IsGap gap
  | .arr items => items.WF
  | .emptyObj gap => IsGap gap
  | .obj members => members.WF
  | _ => True

def Items.WF : Items → Prop
  | .last pre v post => IsGap pre ∧ v.WF ∧ IsGap post
  | .more pre v post rest => IsGap pre ∧ v.WF ∧ IsGap post ∧ rest.WF

def Members.WF : Members → Prop
  | .last pre key mid gap v post =>
    IsGap pre ∧ IsRaw key ∧ IsGap mid ∧ IsGap gap ∧ v.WF ∧ IsGap post
  | .more pre key mid gap v post rest =>
    IsGap pre ∧ IsRaw key ∧ IsGap mid ∧ IsGap gap ∧ v.WF ∧ IsGap post ∧ rest.WF

end

def Starts (t : Text) : Prop := ∃ c l, t = c :: l ∧ isGap c = false

theorem Starts.append {t : Text} (h : Starts t) (rest : Text) : Starts (t ++ rest) := by
  obtain ⟨c, l, rfl, hc⟩ := h
  exact ⟨c, l ++ rest, rfl, hc⟩

theorem gap_spec {gap t : Text} (hgap : IsGap gap) (ht : Starts t) :
    (gap ++ t).dropWhile isGap = t ∧ (gap ++ t).takeWhile isGap = gap := by
  obtain ⟨c, l, rfl, hc⟩ := ht
  rw [dropWhile_append_of_pos hgap, dropWhile_cons_of_neg (by simp [hc]), takeWhile_append_of_pos hgap,
    takeWhile_cons_of_neg (by simp [hc]), append_nil]
  exact ⟨rfl, rfl⟩

theorem Ends.gap {gap t : Text} (hgap : IsGap gap) (ht : Ends t) : Ends (gap ++ t) := by
  cases gap with
  | nil => exact ht
  | cons c l =>
    intro d hd
    cases hd
    simp [isEnd, hgap c (by simp)]

theorem Value.print_starts {v : Value} (hv : v.WF) :
    ∃ c l, v.print = c :: l ∧ isGap c = false ∧ c ≠ ']' ∧ c ≠ '\x7d' := by
  cases v with
  | null => exact ⟨'n', _, rfl, by decide⟩
  | bool b => cases b <;> exact ⟨_, _, rfl, by decide⟩
  | num lit =>
    obtain ⟨⟨c, l, rfl, hc⟩, -⟩ := hv
    refine ⟨c, l, rfl, ?_⟩
    rcases hc with rfl | hc
    · decide
    refine ⟨?_, ?_, ?_⟩
    · by_contra hgap
      simp only [isGap, Bool.not_eq_false, Bool.or_eq_true, beq_iff_eq] at hgap
      rcases hgap with ((rfl | rfl) | rfl) | rfl <;> revert hc <;> decide
    · rintro rfl; revert hc; decide
    · rintro rfl; revert hc; decide
  | _ => exact ⟨_, _, rfl, by decide⟩

theorem Value.starts {v : Value} (hv : v.WF) : Starts v.print := by
  obtain ⟨c, l, h, hc, -⟩ := v.print_starts hv
  exact ⟨c, l, h, hc⟩

theorem starts_of_ne {c : Char} (hc : isGap c = false) (rest : Text) : Starts (c :: rest) :=
  ⟨c, rest, rfl, hc⟩

theorem starts_colon (rest : Text) : Starts (':' :: rest) := starts_of_ne (by decide) rest

theorem starts_quote (rest : Text) : Starts ('\x22' :: rest) := starts_of_ne (by decide) rest

theorem Items.print_dropGap {items : Items} (h : items.WF) (rest : Text) :
    ∃ c l, (items.print ++ rest).dropWhile isGap = c :: l ∧ c ≠ ']' := by
  cases items with
  | last pre v post | more pre v post more =>
    obtain ⟨c, l, hp, hc, hne, -⟩ := v.print_starts h.2.1
    refine ⟨c, ?_, ?_, hne⟩
    rotate_left
    simp only [Items.print, List.append_assoc]
    rw [(gap_spec h.1 ((Value.starts h.2.1).append _)).1, hp]
    rfl

theorem Members.print_dropGap {members : Members} (h : members.WF) (rest : Text) :
    ∃ l, (members.print ++ rest).dropWhile isGap = '\x22' :: l := by
  cases members with
  | last pre key mid gap v post | more pre key mid gap v post more =>
    simp only [Members.print, quoted, append_assoc, cons_append]
    exact ⟨_, (gap_spec h.1 (starts_of_ne (by decide) _)).1⟩

mutual

/-- Reading the print of a well-formed value. The fuel is the length of the text, which every level of the
reader shortens. -/
theorem parseValue_print (v : Value) (hv : v.WF) (fuel : Nat) (hf : v.print.length ≤ fuel) (rest : Text)
    (hrest : Ends rest) : parseValue fuel (v.print ++ rest) = some (v, rest) := by
  obtain ⟨fuel, rfl⟩ : ∃ n, fuel = n + 1 := by
    obtain ⟨c, l, hp, -⟩ := v.print_starts hv
    rw [hp] at hf
    exact ⟨fuel - 1, by simp at hf; omega⟩
  cases v with
  | null => simp [print, parseValue]
  | bool b => cases b <;> simp [print, parseValue]
  | num lit =>
    obtain ⟨⟨c, l, rfl, hc⟩, hscan⟩ := hv
    have hscan := hscan rest hrest
    have hne : ∀ d : Char, d.isDigit = false → d ≠ '-' → c ≠ d := by
      rintro d hd hminus rfl
      rcases hc with rfl | hc
      · exact hminus rfl
      · simp [hd] at hc
    simp only [print, cons_append] at hscan ⊢
    rw [parseValue]
    simp only [beq_iff_eq, hne '\x22' (by decide) (by decide), hne '[' (by decide) (by decide),
      hne '\x7b' (by decide) (by decide), if_false]
    split
    · exact absurd (by simp_all) (hne 'n' (by decide) (by decide))
    · exact absurd (by simp_all) (hne 't' (by decide) (by decide))
    · exact absurd (by simp_all) (hne 'f' (by decide) (by decide))
    · rw [hscan]; rfl
  | str raw =>
    have hscan := hv rest
    simp only [print, quoted, cons_append, append_assoc, nil_append]
    rw [parseValue]
    simp [hscan]
  | emptyArr gap =>
    simp only [print, cons_append, append_assoc, nil_append]
    rw [parseValue]
    simp [gap_spec hv (starts_of_ne (c := ']') (by decide) rest)]
  | emptyObj gap =>
    simp only [print, cons_append, append_assoc, nil_append]
    rw [parseValue]
    simp [gap_spec hv (starts_of_ne (c := '\x7d') (by decide) rest)]
  | arr items =>
    have ih := parseItems_print items hv fuel (by simpa [print] using hf) rest
    obtain ⟨c, l, hd, hne⟩ := items.print_dropGap hv rest
    simp only [print, cons_append]
    rw [parseValue]
    simp only [ih]
    split
    · simp_all
    · simp_all
  | obj members =>
    have ih := parseMembers_print members hv fuel (by simpa [print] using hf) rest
    obtain ⟨l, hd⟩ := members.print_dropGap hv rest
    simp only [print, cons_append]
    rw [parseValue]
    simp [ih, hd]
termination_by sizeOf v

theorem parseItems_print (items : Items) (h : items.WF) (fuel : Nat) (hf : items.print.length ≤ fuel)
    (rest : Text) : parseItems fuel (items.print ++ rest) = some (items, rest) := by
  cases items with
  | last pre v post =>
    obtain ⟨hpre, hv, hpost⟩ := h
    simp only [Items.print, append_assoc, cons_append, nil_append, length_append,
      length_cons, length_nil] at hf ⊢
    obtain ⟨fuel, rfl⟩ : ∃ n, fuel = n + 1 := ⟨fuel - 1, by omega⟩
    have hclose : Starts (']' :: rest) := starts_of_ne (by decide) rest
    have hends : Ends (post ++ ']' :: rest) := Ends.gap hpost (by simp [Ends, isEnd])
    rw [parseItems]
    simp only [gap_spec hpre (v.starts hv |>.append _), parseValue_print v hv fuel (by omega) _ hends,
      gap_spec hpost hclose]
  | more pre v post more =>
    obtain ⟨hpre, hv, hpost, hmore⟩ := h
    simp only [Items.print, append_assoc, cons_append, length_append, length_cons]
      at hf ⊢
    obtain ⟨fuel, rfl⟩ : ∃ n, fuel = n + 1 := ⟨fuel - 1, by omega⟩
    have hcomma : Starts (',' :: (more.print ++ rest)) := starts_of_ne (by decide) _
    have hends : Ends (post ++ ',' :: (more.print ++ rest)) := Ends.gap hpost (by simp [Ends, isEnd])
    have ih := parseItems_print more hmore fuel (by omega) rest
    rw [parseItems]
    simp only [gap_spec hpre (v.starts hv |>.append _), parseValue_print v hv fuel (by omega) _ hends,
      gap_spec hpost hcomma, ih, Option.map_some]
termination_by sizeOf items

theorem parseMembers_print (members : Members) (h : members.WF) (fuel : Nat)
    (hf : members.print.length ≤ fuel) (rest : Text) :
    parseMembers fuel (members.print ++ rest) = some (members, rest) := by
  cases members with
  | last pre key mid gap v post =>
    obtain ⟨hpre, hkey, hmid, hgap, hv, hpost⟩ := h
    simp only [Members.print, quoted, append_assoc, cons_append, nil_append,
      length_append, length_cons, length_nil] at hf ⊢
    obtain ⟨fuel, rfl⟩ : ∃ n, fuel = n + 1 := ⟨fuel - 1, by omega⟩
    have hclose : Starts ('\x7d' :: rest) := starts_of_ne (by decide) rest
    have hends : Ends (post ++ '\x7d' :: rest) := Ends.gap hpost (by simp [Ends, isEnd])
    rw [parseMembers]
    simp only [gap_spec hpre (starts_quote _), hkey _, gap_spec hmid (starts_colon _),
      gap_spec hgap (v.starts hv |>.append _), parseValue_print v hv fuel (by omega) _ hends, gap_spec hpost hclose]
  | more pre key mid gap v post more =>
    obtain ⟨hpre, hkey, hmid, hgap, hv, hpost, hmore⟩ := h
    simp only [Members.print, quoted, append_assoc, cons_append, nil_append,
      length_append, length_cons] at hf ⊢
    obtain ⟨fuel, rfl⟩ : ∃ n, fuel = n + 1 := ⟨fuel - 1, by omega⟩
    have hcomma : Starts (',' :: (more.print ++ rest)) := starts_of_ne (by decide) _
    have hends : Ends (post ++ ',' :: (more.print ++ rest)) := Ends.gap hpost (by simp [Ends, isEnd])
    have ih := parseMembers_print more hmore fuel (by omega) rest
    rw [parseMembers]
    simp only [gap_spec hpre (starts_quote _), hkey _, gap_spec hmid (starts_colon _),
      gap_spec hgap (v.starts hv |>.append _), parseValue_print v hv fuel (by omega) _ hends,
      gap_spec hpost hcomma, ih, Option.map_some]
termination_by sizeOf members

end

theorem parse_print_eq {v : Value} (hv : v.WF) :
    parse v.print = if v.depth ≤ maxNestingDepth then some v else none := by
  obtain ⟨c, l, hp, hc, -⟩ := v.print_starts hv
  have hdrop : v.print.dropWhile isGap = v.print := by
    rw [hp, dropWhile_cons_of_neg (by simp [hc])]
  have h := parseValue_print v hv (v.print.length + 1) (by omega) [] (by simp [Ends])
  rw [append_nil] at h
  simp [parse, hdrop, h]

theorem parse_print {v : Value} (hv : v.WF) (hd : v.depth ≤ maxNestingDepth) : parse v.print = some v := by
  rw [parse_print_eq hv, if_pos hd]

theorem print_inj {v w : Value} (hv : v.WF) (hw : w.WF) (h : v.print = w.print) : v = w := by
  have hpv := parseValue_print v hv v.print.length le_rfl [] (by simp [Ends])
  have hpw := parseValue_print w hw w.print.length le_rfl [] (by simp [Ends])
  rw [h, hpw] at hpv
  simpa using hpv.symm

end Json
