import Mathlib

/-!
# Text, as the Go standard library handles it

A text is the list of its runes. The operations are the ones of the packages
`strings` and `unicode`: lower case by the simple Unicode mapping, trimming of
white space, and search for a substring.
-/

abbrev Text := List Char

namespace Text

open List

instance lawfulBEq : LawfulBEq Text := inferInstance

/-- A literal is read as its runes. -/
instance ofString : Coe String Text := ⟨String.toList⟩

/-- Unicode White_Space, as `unicode.IsSpace` tests it. -/
def isSpace (c : Char) : Bool :=
  let n := c.toNat
  (9 <= n && n <= 13) || n == 32 || n == 0x85 || n == 0xA0 || n == 0x1680 ||
    (0x2000 <= n && n <= 0x200a) || n == 0x2028 || n == 0x2029 || n == 0x202f ||
    n == 0x205f || n == 0x3000

def trimSpace (t : Text) : Text :=
  ((t.dropWhile isSpace).reverse.dropWhile isSpace).reverse

/-- The runes outside ASCII that the simple lower-case mapping moves: first rune, last rune, stride and
the image of the first. -/
def lowerRanges : List (Nat × Nat × Nat × Nat) :=
  [(192, 214, 1, 224), (216, 222, 1, 248), (256, 302, 2, 257), (304, 304, 2, 105),
   (306, 310, 2, 307), (313, 327, 2, 314), (330, 374, 2, 331), (376, 376, 2, 255),
   (377, 381, 2, 378), (385, 385, 2, 595), (386, 388, 2, 387), (390, 390, 2, 596),
   (391, 391, 2, 392), (393, 394, 1, 598), (395, 395, 2, 396), (398, 398, 2, 477),
   (399, 399, 2, 601), (400, 400, 2, 603), (401, 401, 2, 402), (403, 403, 2, 608),
   (404, 404, 2, 611), (406, 406, 2, 617), (407, 407, 2, 616), (408, 408, 2, 409),
   (412, 412, 2, 623), (413, 413, 2, 626), (415, 415, 2, 629), (416, 420, 2, 417),
   (422, 422, 2, 640), (423, 423, 2, 424), (425, 425, 2, 643), (428, 428, 2, 429),
   (430, 430, 2, 648), (431, 431, 2, 432), (433, 434, 1, 650), (435, 437, 2, 436),
   (439, 439, 2, 658), (440, 440, 2, 441), (444, 444, 2, 445), (452, 452, 2, 454),
   (453, 453, 2, 454), (455, 455, 2, 457), (456, 456, 2, 457), (458, 458, 2, 460),
   (459, 475, 2, 460), (478, 494, 2, 479), (497, 497, 2, 499), (498, 500, 2, 499),
   (502, 502, 2, 405), (503, 503, 2, 447), (504, 542, 2, 505), (544, 544, 2, 414),
   (546, 562, 2, 547), (570, 570, 2, 11365), (571, 571, 2, 572), (573, 573, 2, 410),
   (574, 574, 2, 11366), (577, 577, 2, 578), (579, 579, 2, 384), (580, 580, 2, 649),
   (581, 581, 2, 652), (582, 590, 2, 583), (880, 882, 2, 881), (886, 886, 2, 887),
   (895, 895, 2, 1011), (902, 902, 2, 940), (904, 906, 1, 941), (908, 908, 2, 972),
   (910, 911, 1, 973), (913, 929, 1, 945), (931, 939, 1, 963), (975, 975, 2, 983),
   (984, 1006, 2, 985), (1012, 1012, 2, 952), (1015, 1015, 2, 1016), (1017, 1017, 2, 1010),
   (1018, 1018, 2, 1019), (1021, 1023, 1, 891), (1024, 1039, 1, 1104), (1040, 1071, 1, 1072),
   (1120, 1152, 2, 1121), (1162, 1214, 2, 1163), (1216, 1216, 2, 1231), (1217, 1229, 2, 1218),
   (1232, 1326, 2, 1233), (1329, 1366, 1, 1377), (4256, 4293, 1, 11520), (4295, 4295, 2, 11559),
   (4301, 4301, 2, 11565), (5024, 5103, 1, 43888), (5104, 5109, 1, 5112), (7312, 7354, 1, 4304),
   (7357, 7359, 1, 4349), (7680, 7828, 2, 7681), (7838, 7838, 2, 223), (7840, 7934, 2, 7841),
   (7944, 7951, 1, 7936), (7960, 7965, 1, 7952), (7976, 7983, 1, 7968), (7992, 7999, 1, 7984),
   (8008, 8013, 1, 8000), (8025, 8031, 2, 8017), (8040, 8047, 1, 8032), (8072, 8079, 1, 8064),
   (8088, 8095, 1, 8080), (8104, 8111, 1, 8096), (8120, 8121, 1, 8112), (8122, 8123, 1, 8048),
   (8124, 8124, 2, 8115), (8136, 8139, 1, 8050), (8140, 8140, 2, 8131), (8152, 8153, 1, 8144),
   (8154, 8155, 1, 8054), (8168, 8169, 1, 8160), (8170, 8171, 1, 8058), (8172, 8172, 2, 8165),
   (8184, 8185, 1, 8056), (8186, 8187, 1, 8060), (8188, 8188, 2, 8179), (8486, 8486, 2, 969),
   (8490, 8490, 2, 107), (8491, 8491, 2, 229), (8498, 8498, 2, 8526), (8544, 8559, 1, 8560),
   (8579, 8579, 2, 8580), (9398, 9423, 1, 9424), (11264, 11311, 1, 11312), (11360, 11360, 2, 11361),
   (11362, 11362, 2, 619), (11363, 11363, 2, 7549), (11364, 11364, 2, 637),
   (11367, 11371, 2, 11368), (11373, 11373, 2, 593), (11374, 11374, 2, 625), (11375, 11375, 2, 592),
   (11376, 11376, 2, 594), (11378, 11378, 2, 11379), (11381, 11381, 2, 11382),
   (11390, 11391, 1, 575), (11392, 11490, 2, 11393), (11499, 11501, 2, 11500),
   (11506, 11506, 2, 11507), (42560, 42604, 2, 42561), (42624, 42650, 2, 42625),
   (42786, 42798, 2, 42787), (42802, 42862, 2, 42803), (42873, 42875, 2, 42874),
   (42877, 42877, 2, 7545), (42878, 42886, 2, 42879), (42891, 42891, 2, 42892),
   (42893, 42893, 2, 613), (42896, 42898, 2, 42897), (42902, 42920, 2, 42903),
   (42922, 42922, 2, 614), (42923, 42923, 2, 604), (42924, 42924, 2, 609), (42925, 42925, 2, 620),
   (42926, 42926, 2, 618), (42928, 42928, 2, 670), (42929, 42929, 2, 647), (42930, 42930, 2, 669),
   (42931, 42931, 2, 43859), (42932, 42946, 2, 42933), (42948, 42948, 2, 42900),
   (42949, 42949, 2, 642), (42950, 42950, 2, 7566), (42951, 42953, 2, 42952),
   (42960, 42960, 2, 42961), (42966, 42968, 2, 42967), (42997, 42997, 2, 42998),
   (65313, 65338, 1, 65345), (66560, 66599, 1, 66600), (66736, 66771, 1, 66776),
   (66928, 66938, 1, 66967), (66940, 66954, 1, 66979), (66956, 66962, 1, 66995),
   (66964, 66965, 1, 67003), (68736, 68786, 1, 68800), (71840, 71871, 1, 71872),
   (93760, 93791, 1, 93792), (125184, 125217, 1, 125218)]

def inRange (n : Nat) (r : Nat × Nat × Nat × Nat) : Bool :=
  r.1 <= n && n <= r.2.1 && (n - r.1) % r.2.2.1 == 0

def lowerRune (c : Char) : Char :=
  if c.toNat < 128 then c.toLower
  else
    match lowerRanges.find? (inRange c.toNat) with
    | some r => Char.ofNat (r.2.2.2 + (c.toNat - r.1))
    | none => c

def toLower (t : Text) : Text := t.map lowerRune

def contains (t sub : Text) : Bool :=
  match t with
  | [] => sub.isEmpty
  | c :: rest => sub.isPrefixOf (c :: rest) || contains rest sub

theorem contains_iff (t sub : Text) : contains t sub = true ↔ sub <:+: t := by
  induction t with
  | nil => simp [contains]
  | cons c rest ih => rw [contains, Bool.or_eq_true, isPrefixOf_iff_prefix, ih, infix_cons_iff]

theorem trimSpace_prefix {c : Char} {t : Text} (hc : isSpace c = false) : trimSpace (c :: t) <+: c :: t := by
  rw [trimSpace, dropWhile_cons_of_neg (by simp [hc])]
  have hsuffix := dropWhile_suffix (l := (c :: t).reverse) isSpace
  rw [← reverse_prefix, reverse_reverse] at hsuffix
  exact hsuffix

theorem trimSpace_infix (t : Text) : trimSpace t <:+: t := by
  have hsuffix := dropWhile_suffix (l := (t.dropWhile isSpace).reverse) isSpace
  rw [← reverse_prefix, reverse_reverse] at hsuffix
  exact hsuffix.isInfix.trans (dropWhile_suffix isSpace).isInfix

theorem trimSpace_of_clean {t : Text} (h : ∀ c ∈ t, isSpace c = false) : trimSpace t = t := by
  have hdrop {u : Text} (hu : ∀ c ∈ u, isSpace c = false) : u.dropWhile isSpace = u := by
    cases u with
    | nil => rfl
    | cons c rest => exact dropWhile_cons_of_neg (by simp [hu c (by simp)])
  rw [trimSpace, hdrop h, hdrop (by simpa using h), reverse_reverse]

theorem trimSpace_between {a b : Char} (ha : isSpace a = false) (hb : isSpace b = false) (t : Text) :
    trimSpace (a :: (t ++ [b])) = a :: (t ++ [b]) := by
  have hreverse : (a :: (t ++ [b])).reverse = b :: (t.reverse ++ [a]) := by simp
  rw [trimSpace, dropWhile_cons_of_neg (by simp [ha]), hreverse, dropWhile_cons_of_neg (by simp [hb]),
    ← hreverse, reverse_reverse]

theorem trimSpace_trimSpace (t : Text) : trimSpace (trimSpace t) = trimSpace t := by
  have hback : (trimSpace t).reverse.dropWhile isSpace = (trimSpace t).reverse := by
    rw [trimSpace, reverse_reverse]
    exact dropWhile_idempotent (p := isSpace) _
  have hfront : (trimSpace t).dropWhile isSpace = trimSpace t := by
    cases htrim : trimSpace t with
    | nil => rfl
    | cons c rest =>
      obtain ⟨tail, htail⟩ : c :: rest <+: t.dropWhile isSpace := by
        have hsuffix := dropWhile_suffix (l := (t.dropWhile isSpace).reverse) isSpace
        rw [← reverse_prefix, reverse_reverse] at hsuffix
        rwa [← htrim]
      have hhead := head?_dropWhile_not isSpace t
      rw [← htail] at hhead
      exact dropWhile_cons_of_neg (by simpa using hhead)
  conv_lhs => rw [trimSpace]
  rw [hfront, hback, reverse_reverse]

end Text
