import Overture.Sdk.Canonical
import Overture.Lib.Json.Members
import Overture.Lib.Sha256

/-!
# Canonical JSON on the server

The package `canonicaljson` reads the canonical bytes of the SDK and writes them again. The keys
come in the order of their bytes, which is that of their runes; numbers keep their literals.
The one difference lies in the two line separators, which the encoder escapes.
-/

namespace Overture.CanonicalJson

open Json PyNumber

/-- A `map[string]any` with numbers of the type `json.Number`; `none` is the nil map. -/
abbrev GoMap := Option (DocMap Text)

def GoMap.doc : GoMap → Doc Text
  | none => .null
  | some fields => .obj fields

/-- `More`: something is left, and it does not close a container. -/
def decoderMore (rest : Text) : Bool :=
  match rest.dropWhile isGap with
  | [] => false
  | c :: _ => c != ']' && c != '\x7d'

def goMapOf : Doc Text → Option GoMap
  | .null => some none
  | .obj fields => some (some fields)
  | _ => none

def decodeObjectPreserving (data : List UInt8) : Option GoMap :=
  let t := Utf8.decodeLossy data
  match parseValue (t.length + 1) (t.dropWhile isGap) with
  | none => none
  | some (v, rest) =>
    if v.depth > maxNestingDepth then none
    else if decoderMore rest then none
    else goMapOf v.doc

/-- An empty `json.Number` is written as zero. -/
def numberText (lit : Text) : Text := if lit = [] then ['0'] else lit

def encode (m : GoMap) : Option (List UInt8) :=
  if m.doc.all (fun lit => validNumber (numberText lit)) (fun _ => true) then
    some (Utf8.encode (m.doc.write numberText escapeLines).print)
  else none

example : decodeObjectPreserving "\x7b\x7d garbage".toUTF8.data.toList = none := by decide +kernel

theorem isNumber_of_validNumber {lit : Text} (h : validNumber lit = true) : IsNumber lit :=
  (scanNumber_spec (by simpa [validNumber] using h)).2

theorem wf_of_encode {fields : DocMap Text} {bytes : List UInt8} (h : encode (some fields) = some bytes) :
    ((Doc.obj fields).write numberText escapeLines).WF ∧
      Utf8.encode ((Doc.obj fields).write numberText escapeLines).print = bytes := by
  rw [encode] at h
  split at h
  · next hall =>
    exact ⟨Doc.wf_of_all spells_escapeLines (fun _ hn => isNumber_of_validNumber hn) _ hall, Option.some.inj h⟩
  · cases h

theorem get?_of_encode {m m' : DocMap Text} {bytes : List UInt8} (h : encode (some m) = some bytes)
    (h' : encode (some m') = some bytes) (key : Text) :
    (m.get? key).map (Doc.write numberText escapeLines) = (m'.get? key).map (Doc.write numberText escapeLines) := by
  obtain ⟨hwf, hbytes⟩ := wf_of_encode h
  obtain ⟨hwf', hbytes'⟩ := wf_of_encode h'
  exact DocMap.get?_written spells_escapeLines
    (print_inj hwf hwf' (Utf8.encode_inj (hbytes.trans hbytes'.symm))) key

def sha256Hex (bytes : List UInt8) : Text := Hex.encode (Sha256.sum256 bytes)

theorem sha256Hex_inj {a b : List UInt8} (h : sha256Hex a = sha256Hex b) : Sha256.sum256 a = Sha256.sum256 b := by
  have hdecode := congrArg Hex.decode h
  rwa [sha256Hex, sha256Hex, Hex.decode_encode, Hex.decode_encode, Option.some_inj] at hdecode

def separatorFree (s : Text) : Bool := s.all fun c => !isLineSeparator c

theorem escapeControl_of_separator {c : Char} (h : isLineSeparator c = true) :
    escapeControl c = [c] ∧ c ≠ '\x5c' := by
  simp only [isLineSeparator, Bool.or_eq_true, beq_iff_eq] at h
  rcases h with rfl | rfl
  · exact ⟨rfl, by decide⟩
  · exact ⟨rfl, by decide⟩

theorem flatMap_escape_eq_iff (s : Text) :
    s.flatMap escapeControl = s.flatMap escapeLines ↔ separatorFree s = true := by
  induction s with
  | nil => exact iff_of_true rfl rfl
  | cons c s ih =>
    rw [List.flatMap_cons, List.flatMap_cons, escapeLines, separatorFree, List.all_cons]
    by_cases hc : isLineSeparator c = true
    · rw [if_pos hc, hc]
      obtain ⟨hplain, hne⟩ := escapeControl_of_separator hc
      rw [hplain]
      refine iff_of_false ?_ (by simp)
      intro h
      exact hne (List.cons.inj h).1
    · rw [if_neg hc, Bool.eq_false_iff.mpr hc, List.append_cancel_left_eq, ih]
      rfl

theorem numberText_of_isNumber {lit : Text} (h : IsNumber lit) : numberText lit = lit := by
  obtain ⟨⟨c, l, rfl, -⟩, -⟩ := h
  rfl

theorem decodeObjectPreserving_print {v : Value} (hv : v.WF) :
    decodeObjectPreserving (Utf8.encode v.print) =
      if v.depth > maxNestingDepth then none else goMapOf v.doc := by
  obtain ⟨c, l, hprint, hc, -⟩ := v.print_starts hv
  have hdrop : v.print.dropWhile isGap = v.print := by
    rw [hprint, List.dropWhile_cons_of_neg (by simp [hc])]
  have hparse := parseValue_print v hv (v.print.length + 1) (by omega) [] (by simp [Ends])
  rw [List.append_nil] at hparse
  rw [decodeObjectPreserving, Utf8.decodeLossy_encode, hdrop, hparse]
  rfl

theorem decodeObjectPreserving_canonical (d : Canonical) :
    decodeObjectPreserving (canonicalJsonBytes d) =
      if d.dumps.depth > maxNestingDepth then none else goMapOf d.dumps.doc :=
  decodeObjectPreserving_print d.dumps_wf

theorem goMapOf_doc {d : Doc Text} {m : GoMap} (h : goMapOf d = some m) : m.doc = d := by
  cases d with
  | null | obj fields =>
    cases h
    rfl
  | _ => cases h

theorem all_validNumber {v : Value} (hv : v.WF) :
    v.doc.all (fun lit => validNumber (numberText lit)) (fun _ => true) = true := by
  apply v.doc_numbers _ hv
  intro lit hlit
  rw [numberText_of_isNumber hlit]
  exact hlit.valid

theorem encode_canonical {d : Canonical} {m : GoMap}
    (h : decodeObjectPreserving (canonicalJsonBytes d) = some m) :
    encode m = some (Utf8.encode (d.write PyNumber.text escapeLines).print) := by
  rw [decodeObjectPreserving_canonical] at h
  split at h
  · cases h
  have htext : (fun n : PyNumber => numberText n.text) = text :=
    funext fun n => numberText_of_isNumber n.isNumber_text
  rw [encode, goMapOf_doc h, if_pos (all_validNumber d.dumps_wf), Canonical.dumps, d.write_doc_write spells_escapeControl, htext]

/-- The bytes are reproduced exactly for the values in which no string and no key that is written holds a
line separator. -/
theorem encode_canonical_iff (d : Canonical) {m : GoMap}
    (h : decodeObjectPreserving (canonicalJsonBytes d) = some m) :
    encode m = some (canonicalJsonBytes d) ↔ d.all (fun _ => true) separatorFree = true := by
  have hwf : (d.write text escapeLines).WF := d.write_wf isNumber_text spells_escapeLines
  have hsame : Utf8.encode (d.write text escapeLines).print = Utf8.encode d.dumps.print ↔
      d.dumps = d.write text escapeLines := by
    constructor
    · intro heq
      exact print_inj d.dumps_wf hwf (Utf8.encode_inj heq.symm)
    · intro heq
      rw [← heq]
  rw [encode_canonical h, Option.some_inj, canonicalJsonBytes, hsame]
  exact d.write_eq_iff (fun _ => iff_of_true rfl rfl) flatMap_escape_eq_iff

def note (s : Text) : Canonical := .obj (.cons "note" (.str s) .nil)

theorem encode_canonical_plain :
    ∃ m, decodeObjectPreserving (canonicalJsonBytes (note "a < b".toList)) = some m ∧
      encode m = some (canonicalJsonBytes (note "a < b".toList)) := by
  have h : decodeObjectPreserving (canonicalJsonBytes (note "a < b")) =
      some (some (.cons "note" (.str "a < b") .nil)) := by decide +kernel
  exact ⟨_, h, (encode_canonical_iff (note "a < b") h).mpr (by decide +kernel)⟩

/-- The encoder spells a line separator as an escape, the SDK as itself. -/
theorem encode_separator_differs :
    ∃ m, decodeObjectPreserving (canonicalJsonBytes (note ['a', '\u2028'])) = some m ∧
      encode m = some "\x7b\"note\":\"a\\u2028\"\x7d".toUTF8.data.toList ∧
      canonicalJsonBytes (note ['a', '\u2028']) = "\x7b\"note\":\"a\u2028\"\x7d".toUTF8.data.toList ∧
      encode m ≠ some (canonicalJsonBytes (note ['a', '\u2028'])) := by
  refine ⟨some (.cons "note" (.str ['a', '\u2028']) .nil), ?_, ?_, ?_, ?_⟩ <;> decide +kernel

def firstValue (data : List UInt8) : Option (Value × Text) :=
  let t := Utf8.decodeLossy data
  parseValue (t.length + 1) (t.dropWhile isGap)

def isObject : Doc Text → Bool
  | .obj _ => true
  | _ => false

def OneObject (data : List UInt8) : Prop :=
  ∃ v rest, firstValue data = some (v, rest) ∧ isObject v.doc = true ∧ rest.dropWhile isGap = []

def Preserving (data : List UInt8) : Prop :=
  ((decodeObjectPreserving data).isSome = true ↔ OneObject data) ∧
    ∀ m v rest, decodeObjectPreserving data = some m → firstValue data = some (v, rest) →
      encode m = some (Utf8.encode (v.doc.write id escapeLines).print)

theorem encode_read {v : Value} {m : GoMap} (hv : v.WF) (h : goMapOf v.doc = some m) :
    encode m = some (Utf8.encode (v.doc.write id escapeLines).print) := by
  have hwritten : v.doc.write numberText escapeLines = v.doc.write id escapeLines := by
    rw [v.doc.write_eq_iff (q := fun lit => decide (numberText lit = lit)) (p := fun _ => true) (by simp) (by simp)]
    exact v.doc_numbers (fun lit hlit => decide_eq_true (numberText_of_isNumber hlit)) hv
  rw [encode, goMapOf_doc h, if_pos (all_validNumber hv), hwritten]

theorem decode_of_first {data : List UInt8} {v : Value} {rest : Text} (h : firstValue data = some (v, rest)) :
    decodeObjectPreserving data =
      if v.depth > maxNestingDepth then none else if decoderMore rest then none else goMapOf v.doc := by
  rw [firstValue] at h
  rw [decodeObjectPreserving, h]

/-- No `null` that nothing or a closing bracket follows, no object before a closing bracket, and no object nested too
deep that stands alone. -/
def Clear (v : Value) (rest : Text) : Prop :=
  (v.doc = .null → decoderMore rest = true) ∧
    (isObject v.doc = true →
      if v.depth > maxNestingDepth then rest.dropWhile isGap ≠ []
      else ∀ c ∈ (rest.dropWhile isGap).head?, c ≠ ']' ∧ c ≠ '\x7d')

theorem decoded_iff_clear (v : Value) (rest : Text) :
    ((if v.depth > maxNestingDepth then none else if decoderMore rest then none else goMapOf v.doc).isSome = true ↔
      isObject v.doc = true ∧ rest.dropWhile isGap = []) ↔ Clear v rest := by
  rw [Clear, decoderMore]
  cases v <;> cases rest.dropWhile isGap <;>
    simp [Value.doc, isObject, goMapOf, Value.depth, maxNestingDepth]

theorem preserving_iff (data : List UInt8) :
    Preserving data ↔ ∀ v rest, firstValue data = some (v, rest) → Clear v rest := by
  have hwritten : ∀ m v rest, decodeObjectPreserving data = some m → firstValue data = some (v, rest) →
      encode m = some (Utf8.encode (v.doc.write id escapeLines).print) := by
    intro m v rest hm hfirst
    rw [decode_of_first hfirst] at hm
    split_ifs at hm
    exact encode_read ((parse_sound _).1 hfirst) hm
  rw [Preserving, and_iff_left hwritten, OneObject]
  cases hfirst : firstValue data with
  | none =>
    have hnone : decodeObjectPreserving data = none := by
      rw [firstValue] at hfirst
      rw [decodeObjectPreserving, hfirst]
    simp [hnone]
  | some p =>
    obtain ⟨v, rest⟩ := p
    simpa [decode_of_first hfirst] using decoded_iff_clear v rest

/-- A closing bracket after the object goes unnoticed. -/
theorem closing_bracket_accepted : ¬ Preserving "\x7b\x7d]".toUTF8.data.toList := by
  intro h
  obtain ⟨v, rest, hfirst, -, hrest⟩ := h.1.mp (by decide +kernel)
  have hread : (firstValue "\x7b\x7d]".toUTF8.data.toList).map Prod.snd = some [']'] := by decide +kernel
  rw [hfirst] at hread
  cases hread
  cases hrest

end Overture.CanonicalJson
