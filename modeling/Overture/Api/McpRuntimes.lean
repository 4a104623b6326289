import Overture.Api.McpArguments
import Overture.Api.RuntimeAvailability
import Overture.Lib.Json.Integer

/-!
# The list of a tenant's runtimes

The query delivers the hundred runtimes seen last; the filters on the status and on the routability are applied to
these, since both are derived from a row.
-/

namespace Overture.McpRuntimes

open Json McpArguments List
open RuntimeAvailability (EndpointURLs isRoutableHTTPRuntimeEndpoint)

structure RuntimeListFilter where
  limit : Nat
  status : Text
  (hasRoutable routable : Bool)

def mcpIntegerField (raw : Value) (name : Text) : Except Text Int :=
  match Decoder.int 64 raw 0 with
  | (value, true) => .ok value
  | (_, false) => .error (name ++ " must be an integer")

def mcpLimitArg (raw : Text) (fallback : Nat) : Nat :=
  match unmarshalMCPObject raw with
  | .error _ => fallback
  | .ok fields =>
    match (assigned "limit" fields).map fun limitRaw => mcpIntegerField limitRaw "limit" with
    | some (.ok limit) => if 0 < limit ∧ limit ≤ 100 then limit.toNat else min fallback 100
    | _ => min fallback 100

def mcpRuntimeListArgs (raw : Text) : RuntimeListFilter :=
  let filter : RuntimeListFilter := ⟨mcpLimitArg raw 100, [], false, false⟩
  match unmarshalMCPObject raw with
  | .error _ => filter
  | .ok fields =>
    let filter :=
      match (assigned "status" fields).map fun statusRaw => mcpStringField statusRaw "status" with
      | some (.ok status) => { filter with status }
      | _ => filter
    match (assigned "routable" fields).map fun routableRaw => Decoder.bool routableRaw false with
    | some (routable, true) => { filter with hasRoutable := true, routable }
    | _ => filter

structure RuntimeRow where
  runtimeID : Text
  tenantID : Option Text
  (status capabilities : Text)
  lastSeenAt : Int
  endpoint : Text
  isHealthy : Bool

structure RuntimeView where
  (runtimeID status : Text)
  routable : Bool
  capabilities : Any
  lastSeenAt : Int
deriving DecidableEq

def safeJSONList (raw : Text) : Any :=
  match (parse raw).bind Value.toAny with
  | none | some .null => .arr .nil
  | some out => out

variable (urls : EndpointURLs)

def viewOf (row : RuntimeRow) : RuntimeView :=
  let routable := row.isHealthy && row.status == "active" && isRoutableHTTPRuntimeEndpoint urls row.endpoint
  ⟨row.runtimeID, if !routable && row.status == "active" then "unroutable" else row.status, routable,
    safeJSONList row.capabilities, row.lastSeenAt⟩

def scanRuntimes (filter : RuntimeListFilter) : List RuntimeRow → List RuntimeView → List RuntimeView
  | [], runtimes => runtimes
  | row :: rows, runtimes =>
    let view := viewOf urls row
    if filter.status ≠ [] ∧ view.status ≠ filter.status then scanRuntimes filter rows runtimes
    else if filter.hasRoutable ∧ view.routable ≠ filter.routable then scanRuntimes filter rows runtimes
    else if filter.limit ≤ runtimes.length + 1 then runtimes ++ [view]
    else scanRuntimes filter rows (runtimes ++ [view])

def listRuntimes (query : Option (List RuntimeRow)) (args : Text) : Except Text (List RuntimeView) :=
  match query with
  | none => .error "list runtimes failed"
  | some rows => .ok (scanRuntimes urls (mcpRuntimeListArgs args) rows [])

/-- The rows of a tenant in the order they were last seen; rows of one time stand in any order. -/
structure LastSeenOrder (table : List RuntimeRow) (tenantID : Text) where
  rows : List RuntimeRow
  perm : rows.Perm (table.filter fun row => row.tenantID == some tenantID)
  descending : rows.Pairwise fun a b => b.lastSeenAt ≤ a.lastSeenAt

def Matches (filter : RuntimeListFilter) (row : RuntimeRow) : Prop :=
  (filter.status ≠ [] → (viewOf urls row).status = filter.status) ∧
    (filter.hasRoutable = true → (viewOf urls row).routable = filter.routable)

instance decidableMatches (filter : RuntimeListFilter) (row : RuntimeRow) : Decidable (Matches urls filter row) :=
  inferInstanceAs (Decidable (_ ∧ _))

def wanted (filter : RuntimeListFilter) (rows : List RuntimeRow) : List RuntimeView :=
  ((rows.filter (Matches urls filter)).map (viewOf urls)).take filter.limit

variable {urls} {filter : RuntimeListFilter}

theorem mcpLimitArg_pos (raw : Text) : 0 < mcpLimitArg raw 100 := by
  unfold mcpLimitArg
  split
  · decide
  split
  · split
    · next hlimit => omega
    · decide
  · decide

theorem limit_pos (raw : Text) : 0 < (mcpRuntimeListArgs raw).limit := by
  have hpos := mcpLimitArg_pos raw
  unfold mcpRuntimeListArgs
  split
  · exact hpos
  dsimp only
  split <;> split <;> exact hpos

theorem scanRuntimes_cons (row : RuntimeRow) (rows : List RuntimeRow) (runtimes : List RuntimeView) :
    scanRuntimes urls filter (row :: rows) runtimes =
      if Matches urls filter row then
        if filter.limit ≤ runtimes.length + 1 then runtimes ++ [viewOf urls row]
        else scanRuntimes urls filter rows (runtimes ++ [viewOf urls row])
      else scanRuntimes urls filter rows runtimes := by
  rw [scanRuntimes]
  by_cases hstatus : filter.status ≠ [] ∧ (viewOf urls row).status ≠ filter.status
  · rw [if_pos hstatus, if_neg fun hmatch => hstatus.2 (hmatch.1 hstatus.1)]
  rw [if_neg hstatus]
  by_cases hroutable : filter.hasRoutable = true ∧ (viewOf urls row).routable ≠ filter.routable
  · rw [if_pos hroutable, if_neg fun hmatch => hroutable.2 (hmatch.2 hroutable.1)]
  have hmatch : Matches urls filter row :=
    ⟨fun hne => not_not.mp fun hother => hstatus ⟨hne, hother⟩,
      fun hgiven => not_not.mp fun hother => hroutable ⟨hgiven, hother⟩⟩
  rw [if_neg hroutable, if_pos hmatch]

theorem scanRuntimes_eq {rows : List RuntimeRow} {runtimes : List RuntimeView} (h : runtimes.length < filter.limit) :
    scanRuntimes urls filter rows runtimes =
      (runtimes ++ (rows.filter (Matches urls filter)).map (viewOf urls)).take filter.limit := by
  induction rows generalizing runtimes with
  | nil => rw [scanRuntimes, filter_nil, map_nil, append_nil, take_of_length_le h.le]
  | cons row rows ih =>
    rw [scanRuntimes_cons, filter_cons]
    by_cases hmatch : Matches urls filter row
    · have hlength : (runtimes ++ [viewOf urls row]).length = runtimes.length + 1 := length_append
      have hcons := append_cons runtimes (viewOf urls row) ((rows.filter (Matches urls filter)).map (viewOf urls))
      rw [if_pos hmatch, if_pos (decide_eq_true hmatch), map_cons, hcons]
      split_ifs with hlast
      · rw [take_left' (by omega)]
      · exact ih (by omega)
    · rw [if_neg hmatch, if_neg (by simpa using hmatch), ih h]

theorem scanRuntimes_eq_wanted_iff (h : 0 < filter.limit) (rows : List RuntimeRow) (n : Nat) :
    scanRuntimes urls filter (rows.take n) [] = wanted urls filter rows ↔
      filter.limit ≤ (rows.take n).countP (Matches urls filter) ∨ ∀ row ∈ rows.drop n, ¬Matches urls filter row := by
  have hsplit : rows.filter (Matches urls filter) =
      (rows.take n).filter (Matches urls filter) ++ (rows.drop n).filter (Matches urls filter) := by
    rw [← filter_append, take_append_drop]
  have hlength : ([] : List RuntimeView).length < filter.limit := h
  rw [scanRuntimes_eq hlength, nil_append, wanted, hsplit, map_append, take_append, length_map,
    ← countP_eq_length_filter, self_eq_append_right, take_eq_nil_iff, Nat.sub_eq_zero_iff_le,
    map_eq_nil_iff, filter_eq_nil_iff]
  simp only [decide_eq_true_eq]

/-- The first matching runtimes of the tenant are returned, as many as are asked for, exactly when the first hundred
hold that many or none matches behind them. -/
theorem listRuntimes_complete_iff (urls : EndpointURLs) (table : List RuntimeRow) (tenantID args : Text)
    (order : LastSeenOrder table tenantID) :
    listRuntimes urls (some (order.rows.take 100)) args = .ok (wanted urls (mcpRuntimeListArgs args) order.rows) ↔
      (mcpRuntimeListArgs args).limit ≤ (order.rows.take 100).countP (Matches urls (mcpRuntimeListArgs args)) ∨
        ∀ row ∈ order.rows.drop 100, ¬Matches urls (mcpRuntimeListArgs args) row := by
  rw [listRuntimes, Except.ok.injEq]
  exact scanRuntimes_eq_wanted_iff (limit_pos args) order.rows 100

def noURLs : EndpointURLs := ⟨fun _ => none, fun _ _ => []⟩

def sampleRow (i : Nat) : RuntimeRow :=
  ⟨Nat.toDigits 10 i, some "acme", if i < 100 then "active" else "stale", "[]", -i, [], true⟩

def sampleOrder : LastSeenOrder ((range 101).map sampleRow) "acme" where
  rows := (range 101).map sampleRow
  perm := by rw [filter_eq_self.mpr (by simp [sampleRow])]
  descending := by
    rw [pairwise_map]
    exact pairwise_lt_range.imp fun hlt => by simp only [sampleRow]; omega

def staleArgs : Text := "\x7b\"status\":\"stale\"\x7d"

theorem stale_runtime_left_out :
    listRuntimes noURLs (some (sampleOrder.rows.take 100)) staleArgs = .ok [] ∧
      (mcpRuntimeListArgs staleArgs).limit = 100 ∧
      (wanted noURLs (mcpRuntimeListArgs staleArgs) sampleOrder.rows).map RuntimeView.runtimeID = ["100".toList] := by
  refine ⟨?_, ?_, ?_⟩ <;> decide +kernel

end Overture.McpRuntimes
