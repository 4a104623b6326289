import Overture.Lib.Table

/-!
# Tables whose rows have an owner

A table together with who first wrote each of its rows. As long as every write goes to a fresh
key or to a row of the writer, nobody touches the row of another.
-/

structure OwnedTable {α κ : Type} (key : α → κ) (τ : Type) where
  table : Table key
  /-- Who wrote the row with this key first. -/
  owner : κ → Option τ

namespace OwnedTable

variable {α κ τ : Type} {key : α → κ} [DecidableEq κ]

def empty : OwnedTable key τ := ⟨Table.empty, fun _ => none⟩

def track (caller : τ) (after : Table key) (o : OwnedTable key τ) : OwnedTable key τ where
  table := after
  owner k := if (o.table.get? k).isNone && (after.get? k).isSome then some caller else o.owner k

def Faithful (tag : α → τ) (o : OwnedTable key τ) : Prop := ∀ k, o.owner k = (o.table.get? k).map tag

variable {tag : α → τ} {o : OwnedTable key τ} {caller : τ} {a : α}

theorem faithful_empty : Faithful tag (empty : OwnedTable key τ) := by
  intro k
  have h : (Table.empty : Table key).get? k = none := Table.get?_eq_none_iff.mpr (by simp [Table.empty])
  rw [empty, h]
  rfl

theorem track_self : o.track caller o.table = o := by
  have howner : (o.track caller o.table).owner = o.owner := by
    funext k
    cases hget : o.table.get? k <;> simp [track, hget]
  cases o
  rw [track, mk.injEq]
  exact ⟨rfl, howner⟩

theorem Faithful.put (h : o.Faithful tag) (htag : tag a = caller)
    (hown : ∀ old, o.table.get? (key a) = some old → tag old = caller) :
    (o.track caller (o.table.put a)).Faithful tag := by
  intro k
  simp only [track, Table.get?_put]
  by_cases hk : key a = k
  · subst hk
    rw [if_pos rfl, Option.map_some, htag]
    cases hget : o.table.get? (key a) with
    | none => simp
    | some old =>
      rw [if_neg (by simp), h, hget, Option.map_some, hown old hget]
  · rw [if_neg hk, h]
    cases hget : o.table.get? k with
    | none => simp
    | some old => simp

theorem Faithful.get?_put_of_ne (h : o.Faithful tag)
    (hown : ∀ old, o.table.get? (key a) = some old → tag old = caller) {k : κ} {t : τ}
    (howner : o.owner k = some t) (hne : t ≠ caller) : (o.table.put a).get? k = o.table.get? k := by
  have hk : key a ≠ k := by
    rintro rfl
    rw [h] at howner
    obtain ⟨old, hget, rfl⟩ := Option.map_eq_some_iff.mp howner
    exact hne (hown old hget)
  rw [Table.get?_put, if_neg hk]

end OwnedTable
