import Overture.Api.ActionDefinitions
import Overture.Lib.AddressBlock

/-!
# The addresses of an action target

A target URL is accepted as loopback HTTP or as external HTTPS, and its addresses, the literal one or those the
resolver answers, are checked one by one. The tests on the bytes of an address are compared here with the blocks that
no public destination lies in.
-/

namespace Overture.TargetAddresses

open Except

/-- A `net.IP`: the bytes of the slice, none of them when it is nil. -/
abbrev IP := List UInt8

def IP.byte (ip : IP) (i : Nat) : UInt8 := ip.getD i 0

def to4 (ip : IP) : Option IP :=
  if ip.length = 4 then some ip
  else if ip.length = 16 ∧ ip.take 12 = List.replicate 10 0 ++ [0xff, 0xff] then some (ip.drop 12)
  else none

def ipv6loopback : IP := List.replicate 15 0 ++ [1]

def ipv6unspecified : IP := List.replicate 16 0

def isLoopback (ip : IP) : Bool :=
  match to4 ip with
  | some v4 => IP.byte v4 0 == 127
  | none => ip == ipv6loopback

def isPrivate (ip : IP) : Bool :=
  match to4 ip with
  | some v4 => IP.byte v4 0 == 10 || (IP.byte v4 0 == 172 && IP.byte v4 1 &&& 0xf0 == 16) ||
      (IP.byte v4 0 == 192 && IP.byte v4 1 == 168)
  | none => ip.length == 16 && IP.byte ip 0 &&& 0xfe == 0xfc

def isLinkLocalUnicast (ip : IP) : Bool :=
  match to4 ip with
  | some v4 => IP.byte v4 0 == 169 && IP.byte v4 1 == 254
  | none => ip.length == 16 && IP.byte ip 0 == 0xfe && IP.byte ip 1 &&& 0xc0 == 0x80

def isLinkLocalMulticast (ip : IP) : Bool :=
  match to4 ip with
  | some v4 => IP.byte v4 0 == 224 && IP.byte v4 1 == 0 && IP.byte v4 2 == 0
  | none => ip.length == 16 && IP.byte ip 0 == 0xff && IP.byte ip 1 &&& 0x0f == 0x02

def isMulticast (ip : IP) : Bool :=
  match to4 ip with
  | some v4 => IP.byte v4 0 &&& 0xf0 == 0xe0
  | none => ip.length == 16 && IP.byte ip 0 == 0xff

def isUnspecified (ip : IP) : Bool := to4 ip == some [0, 0, 0, 0] || ip == ipv6unspecified

def isInterfaceLocalMulticast (ip : IP) : Bool :=
  ip.length == 16 && IP.byte ip 0 == 0xff && IP.byte ip 1 &&& 0x0f == 0x01

def isDeniedDestinationIP (ip : IP) : Bool :=
  isLoopback ip || isPrivate ip || isLinkLocalUnicast ip || isLinkLocalMulticast ip || isMulticast ip ||
    isUnspecified ip || isInterfaceLocalMulticast ip ||
    match to4 ip with
    | some v4 =>
      (IP.byte v4 0 == 100 && 64 ≤ IP.byte v4 1 && IP.byte v4 1 ≤ 127) || IP.byte v4 0 == 0 ||
        (IP.byte v4 0 == 192 && IP.byte v4 1 == 0 && IP.byte v4 2 == 0) ||
        (IP.byte v4 0 == 192 && IP.byte v4 1 == 0 && IP.byte v4 2 == 2) ||
        (IP.byte v4 0 == 198 && IP.byte v4 1 == 51 && IP.byte v4 2 == 100) ||
        (IP.byte v4 0 == 203 && IP.byte v4 1 == 0 && IP.byte v4 2 == 113) ||
        (IP.byte v4 0 == 198 && (IP.byte v4 1 == 18 || IP.byte v4 1 == 19))
    | none => ip.length == 16 && (IP.byte ip 0 &&& 0xfe == 0xfc ||
        (IP.byte ip 0 == 0x20 && IP.byte ip 1 == 0x01 && IP.byte ip 2 == 0x0d && IP.byte ip 3 == 0xb8))

/-- What the validation takes from its surroundings: the parser of URLs, `net.ParseIP`, the resolver and
`net.IP.String`. -/
structure Network where
  url : URLParser
  parseIP : Text → Option IP
  lookupIP : Text → Option (List IP)
  text : IP → Text

def classifyIP (net : Network) (ip : IP) (requireLoopback : Bool) : Option Text :=
  if ip = [] then some "invalid IP address"
  else
    let ip := (to4 ip).getD ip
    if requireLoopback then
      if isLoopback ip then none
      else some ("loopback target resolved to non-loopback address " ++ net.text ip)
    else if isDeniedDestinationIP ip then some ("target resolves to denied address " ++ net.text ip)
    else none

def validateResolvedAddresses (net : Network) (host : Text) (requireLoopback : Bool) : Option Text :=
  match net.parseIP host with
  | some ip => classifyIP net ip requireLoopback
  | none =>
    match net.lookupIP host with
    | none => some "failed to resolve target host"
    | some [] => some "target host resolved to no addresses"
    | some ips => ips.findSome? fun ip => classifyIP net ip requireLoopback

def passes (problem : Option Text) (cls : ActionTargetURLClass) : Except Text ActionTargetURLClass :=
  match problem with
  | none => .ok cls
  | some text => .error text

def validateActionTargetURL (net : Network) (raw : Text) : Except Text ActionTargetURLClass := do
  let (host, cls) ← parseActionTargetURL net.url raw
  passes (validateResolvedAddresses net host (cls == .loopbackHTTP)) cls

def validateActionTargetURLSyntax (net : Network) (raw : Text) : Except Text ActionTargetURLClass := do
  let (host, cls) ← parseActionTargetURL net.url raw
  passes ((net.parseIP host).bind fun ip => classifyIP net ip (cls == .loopbackHTTP)) cls

/-! ## Where no public destination lies -/

/-- Loopback, private, link-local, multicast, unspecified and reserved IPv4 addresses and those for documentation. -/
def blocks4 : List AddressBlock :=
  [⟨[127, 0, 0, 0], 8⟩,
    ⟨[10, 0, 0, 0], 8⟩, ⟨[172, 16, 0, 0], 12⟩, ⟨[192, 168, 0, 0], 16⟩,
    ⟨[169, 254, 0, 0], 16⟩, ⟨[224, 0, 0, 0], 4⟩, ⟨[0, 0, 0, 0], 32⟩,
    ⟨[0, 0, 0, 0], 8⟩, ⟨[100, 64, 0, 0], 10⟩, ⟨[192, 0, 0, 0], 24⟩, ⟨[198, 18, 0, 0], 15⟩,
    ⟨[240, 0, 0, 0], 4⟩, ⟨[255, 255, 255, 255], 32⟩,
    ⟨[192, 0, 2, 0], 24⟩, ⟨[198, 51, 100, 0], 24⟩, ⟨[203, 0, 113, 0], 24⟩]

def v6 (start : List UInt8) : IP := start ++ List.replicate (16 - start.length) 0

def blocks6 : List AddressBlock :=
  [⟨ipv6loopback, 128⟩, ⟨v6 [0xfc], 7⟩, ⟨v6 [0xfe, 0x80], 10⟩, ⟨v6 [0xff], 8⟩, ⟨ipv6unspecified, 128⟩,
    ⟨v6 [0x20, 0x01, 0x0d, 0xb8], 32⟩, ⟨v6 [0x3f, 0xff], 20⟩]

def mapped : AddressBlock := ⟨List.replicate 10 0 ++ [0xff, 0xff, 0, 0, 0, 0], 96⟩

def compatible : AddressBlock := ⟨v6 [], 96⟩

def nat64 : AddressBlock := ⟨v6 [0x00, 0x64, 0xff, 0x9b], 96⟩

def sixToFour : AddressBlock := ⟨v6 [0x20, 0x02], 16⟩

def tunnelled (ip : IP) : List IP :=
  (if compatible.contains ip || nat64.contains ip then [ip.drop 12] else []) ++
    if sixToFour.contains ip then [(ip.drop 2).take 4] else []

def embedded (ip : IP) : List IP := (if mapped.contains ip then [ip.drop 12] else []) ++ tunnelled ip

def Special4 (ip : IP) : Prop := ∃ block ∈ blocks4, block.contains ip = true

def Special (ip : IP) : Prop :=
  Special4 ip ∨ (∃ block ∈ blocks6, block.contains ip = true) ∨ ∃ v4 ∈ embedded ip, Special4 v4

def Loopback (ip : IP) : Prop :=
  (⟨[127, 0, 0, 0], 8⟩ : AddressBlock).contains ip = true ∨ ip = ipv6loopback ∨
    (mapped.contains ip = true ∧ (⟨[127, 0, 0, 0], 8⟩ : AddressBlock).contains (ip.drop 12) = true)

/-! ## What the byte tests cover -/

open AddressBlock

def reserved4 : AddressBlock := ⟨[240, 0, 0, 0], 4⟩

theorem mask_f0 (b : UInt8) : (b &&& 0xf0 = 16 ↔ b.toNat >>> 4 = 1) ∧ (b &&& 0xf0 = 0xe0 ↔ b.toNat >>> 4 = 14) :=
  forall_byte (p := fun b => (b &&& 0xf0 = 16 ↔ b.toNat >>> 4 = 1) ∧ (b &&& 0xf0 = 0xe0 ↔ b.toNat >>> 4 = 14))
    (by decide +kernel) b

theorem mask_high (b : UInt8) : (b &&& 0xfe = 0xfc ↔ b.toNat >>> 1 = 126) ∧ (b &&& 0xc0 = 0x80 ↔ b.toNat >>> 6 = 2) :=
  forall_byte (p := fun b => (b &&& 0xfe = 0xfc ↔ b.toNat >>> 1 = 126) ∧ (b &&& 0xc0 = 0x80 ↔ b.toNat >>> 6 = 2))
    (by decide +kernel) b

theorem between (b : UInt8) : (64 ≤ b ∧ b ≤ 127 ↔ b.toNat >>> 6 = 1) ∧ (b = 18 ∨ b = 19 ↔ b.toNat >>> 1 = 9) :=
  forall_byte (p := fun b => (64 ≤ b ∧ b ≤ 127 ↔ b.toNat >>> 6 = 1) ∧ (b = 18 ∨ b = 19 ↔ b.toNat >>> 1 = 9))
    (by decide +kernel) b

theorem special4_iff (a b c d : UInt8) :
    Special4 [a, b, c, d] ↔ isDeniedDestinationIP [a, b, c, d] = true ∨ reserved4.contains [a, b, c, d] = true := by
  simp only [isDeniedDestinationIP, isLoopback, isPrivate, isLinkLocalUnicast, isLinkLocalMulticast, isMulticast,
    isUnspecified, isInterfaceLocalMulticast, to4, IP.byte, Special4, blocks4, reserved4, contains]
  simp [agree_byte, agree_part, (mask_f0 a).2, (mask_f0 b).1, (between b).1, (between b).2, ipv6unspecified,
    and_assoc, or_assoc]
  constructor <;> rintro (h | h | h | h | h | h | h | h | h | h | h | h | h | h | h | h) <;> simp [h]

def documentation6 : AddressBlock := ⟨v6 [0x3f, 0xff], 20⟩

/-- What the tests leave out: the last of the reserved IPv4 blocks, the second IPv6 block for documentation, and
the IPv4 addresses that an IPv6 address embeds other than as a mapped one. -/
def Missed (ip : IP) : Prop :=
  match to4 ip with
  | some v4 => reserved4.contains v4 = true
  | none => documentation6.contains ip = true ∨ ∃ v4 ∈ tunnelled ip, Special4 v4

variable {ip : IP}

theorem contains_length {block : AddressBlock} (h : block.contains ip = true) :
    ip.length = block.base.length := by
  rw [contains, Bool.and_eq_true, beq_iff_eq] at h
  exact h.1

theorem length_of_special4 (h : Special4 ip) : ip.length = 4 := by
  obtain ⟨block, hblock, hcontains⟩ := h
  have hbases : ∀ block ∈ blocks4, block.base.length = 4 := by decide
  rw [contains_length hcontains, hbases block hblock]

theorem special4_iff_of_length (h : ip.length = 4) :
    Special4 ip ↔ isDeniedDestinationIP ip = true ∨ reserved4.contains ip = true := by
  match ip, h with
  | [a, b, c, d], _ => exact special4_iff a b c d

theorem length_of_blocks6 (h : ∃ block ∈ blocks6, block.contains ip = true) : ip.length = 16 := by
  obtain ⟨block, hblock, hcontains⟩ := h
  have hbases : ∀ block ∈ blocks6, block.base.length = 16 := by decide
  rw [contains_length hcontains, hbases block hblock]

theorem tunnelled_of_length (h : ip.length ≠ 16) : tunnelled ip = [] := by
  have hnot (block : AddressBlock) (hbase : block.base.length = 16) : block.contains ip = false := by
    rw [Bool.eq_false_iff]
    intro hcontains
    exact h ((contains_length hcontains).trans hbase)
  rw [tunnelled, hnot compatible rfl, hnot nat64 rfl, hnot sixToFour rfl]
  rfl

theorem mapped_iff (h : ip.length = 16) :
    mapped.contains ip = true ↔ ip.take 12 = List.replicate 10 0 ++ [0xff, 0xff] := by
  have hbase : mapped.base.length = 16 := rfl
  have hbytes : agree (8 * 12) ip mapped.base = true ↔ ip.take 12 = mapped.base.take 12 :=
    agree_bytes (by omega) (by omega)
  rw [contains, Bool.and_eq_true, beq_iff_eq, hbase]
  constructor
  · rintro ⟨-, hagree⟩
    exact hbytes.mp hagree
  · intro htake
    exact ⟨h, hbytes.mpr htake⟩
theorem to4_eq_some_iff {v4 : IP} :
    to4 ip = some v4 ↔ (ip.length = 4 ∧ v4 = ip) ∨ (mapped.contains ip = true ∧ v4 = ip.drop 12) := by
  rw [to4]
  split
  · next h4 =>
    have hnot : ¬ mapped.contains ip = true := by
      intro hcontains
      have hlength := contains_length hcontains
      rw [h4] at hlength
      cases hlength
    simp [h4, hnot, eq_comm]
  next h4 =>
  by_cases h16 : ip.length = 16
  · have hmapped := mapped_iff h16
    simp only [h16, true_and]
    split
    · next htake => simp [hmapped.mpr htake, eq_comm]
    · next htake => simp [mt hmapped.mp htake]
  · have hnot : ¬ mapped.contains ip = true := fun hcontains => h16 (contains_length hcontains)
    simp [h4, h16, hnot]

theorem blocks6_iff (h16 : ip.length = 16) (hnone : to4 ip = none) :
    (∃ block ∈ blocks6, block.contains ip = true) ↔
      isDeniedDestinationIP ip = true ∨ documentation6.contains ip = true := by
  have hone (base : IP) (hbase : base.length = 16) : (⟨base, 128⟩ : AddressBlock).contains ip = true ↔ ip = base := by
    have hbytes : agree (8 * 16) ip base = true ↔ ip.take 16 = base.take 16 := agree_bytes (by omega) (by omega)
    rw [List.take_of_length_le (by omega), List.take_of_length_le (by omega)] at hbytes
    rw [contains, Bool.and_eq_true, beq_iff_eq, hbytes]
    simp [h16, hbase]
  simp only [blocks6, List.mem_cons, List.not_mem_nil, or_false, exists_eq_or_imp, exists_eq_left,
    hone ipv6loopback rfl, hone ipv6unspecified rfl]
  simp only [isDeniedDestinationIP, isLoopback, isPrivate, isLinkLocalUnicast, isLinkLocalMulticast, isMulticast,
    isUnspecified, isInterfaceLocalMulticast, hnone]
  match ip, h16 with
  | a :: b :: c :: d :: rest, h16 =>
    have hrest : rest.length = 12 := by simpa using h16
    simp [contains, v6, agree_byte, agree_part, hrest, IP.byte, documentation6, (mask_high a).1, (mask_high b).2,
      and_assoc, or_assoc]
    constructor
    · rintro (h | h | h | h | h | h | h) <;> simp [h]
    · rintro (h | h | h | h | h | h | h | h | h | h) <;> simp [h]

theorem eq_of_mapped (h : mapped.contains ip = true) :
    ∃ a b c d, ip = [0, 0, 0, 0, 0, 0, 0, 0, 0, 0, 0xff, 0xff, a, b, c, d] := by
  have h16 : ip.length = 16 := contains_length h
  have htake := (mapped_iff h16).mp h
  have hdrop : (ip.drop 12).length = 4 := by
    rw [List.length_drop, h16]
  match hrest : ip.drop 12, hdrop with
  | [a, b, c, d], _ =>
    refine ⟨a, b, c, d, ?_⟩
    rw [← List.take_append_drop 12 ip, htake, hrest]
    rfl

theorem not_blocks6_of_mapped (h : mapped.contains ip = true) :
    ¬ ∃ block ∈ blocks6, block.contains ip = true := by
  obtain ⟨a, b, c, d, rfl⟩ := eq_of_mapped h
  simp [blocks6, contains, v6, ipv6loopback, ipv6unspecified, agree_byte, agree_part]

theorem tunnelled_of_mapped (h : mapped.contains ip = true) : tunnelled ip = [] := by
  obtain ⟨a, b, c, d, rfl⟩ := eq_of_mapped h
  simp [tunnelled, compatible, nat64, sixToFour, contains, v6, agree_byte]

theorem not_denied_of_length (hnone : to4 ip = none) (h16 : ip.length ≠ 16) :
    isDeniedDestinationIP ip = false := by
  have hloopback : ip ≠ ipv6loopback := by
    rintro rfl
    exact h16 rfl
  have hunspecified : ip ≠ ipv6unspecified := by
    rintro rfl
    exact h16 rfl
  simp [isDeniedDestinationIP, isLoopback, isPrivate, isLinkLocalUnicast, isLinkLocalMulticast, isMulticast,
    isUnspecified, isInterfaceLocalMulticast, hnone, h16, hloopback, hunspecified]

theorem special_iff (ip : IP) : Special ip ↔ isDeniedDestinationIP ((to4 ip).getD ip) = true ∨ Missed ip := by
  rw [Special, Missed, embedded]
  cases hto4 : to4 ip with
  | some v4 =>
    dsimp only [Option.getD_some]
    rcases to4_eq_some_iff.mp hto4 with ⟨h4, rfl⟩ | ⟨hmapped, rfl⟩
    · have h6 : ¬ ∃ block ∈ blocks6, block.contains v4 = true := fun h => by
        have h16 := length_of_blocks6 h
        omega
      have hnot : ¬ mapped.contains v4 = true := fun h => by
        have h16 : v4.length = 16 := contains_length h
        omega
      simp [h6, hnot, tunnelled_of_length (show v4.length ≠ 16 by omega), special4_iff_of_length h4]
    have h16 : ip.length = 16 := contains_length hmapped
    have h4 : ¬ Special4 ip := fun h => by
      have hlength := length_of_special4 h
      omega
    have hdrop : (ip.drop 12).length = 4 := by
      rw [List.length_drop, h16]
    simp [not_blocks6_of_mapped hmapped, tunnelled_of_mapped hmapped, hmapped, h4, special4_iff_of_length hdrop]
  | none =>
    dsimp only [Option.getD_none]
    have hlength : ip.length ≠ 4 := fun h4 => by
      have hsome := to4_eq_some_iff.mpr (.inl ⟨h4, rfl⟩)
      rw [hto4] at hsome
      cases hsome
    have h4 : ¬ Special4 ip := fun h => hlength (length_of_special4 h)
    have hnot : ¬ mapped.contains ip = true := fun h => by
      have hsome := to4_eq_some_iff.mpr (.inr ⟨h, rfl⟩)
      rw [hto4] at hsome
      cases hsome
    by_cases h16 : ip.length = 16
    · rw [blocks6_iff h16 hto4]
      simp [h4, hnot, or_assoc]
    have h6 : ¬ ∃ block ∈ blocks6, block.contains ip = true := fun h => h16 (length_of_blocks6 h)
    have hdoc : ¬ documentation6.contains ip = true := fun h => h16 (contains_length h)
    simp [h4, h6, hnot, hdoc, tunnelled_of_length h16, not_denied_of_length hto4 h16]

theorem loopback_of_isLoopback (h : isLoopback ((to4 ip).getD ip) = true) : Loopback ip := by
  cases hto4 : to4 ip with
  | some v4 =>
    rw [hto4, Option.getD_some] at h
    have hfirst (w : IP) (h4 : w.length = 4) (hw : isLoopback w = true) :
        (⟨[127, 0, 0, 0], 8⟩ : AddressBlock).contains w = true := by
      match w, h4 with
      | [a, b, c, d], _ =>
        have ha : a = 127 := by simpa [isLoopback, to4, IP.byte] using hw
        simp [contains, agree_byte, ha]
    rcases to4_eq_some_iff.mp hto4 with ⟨h4, rfl⟩ | ⟨hmapped, rfl⟩
    · exact .inl (hfirst v4 h4 h)
    have h16 : ip.length = 16 := contains_length hmapped
    exact .inr (.inr ⟨hmapped, hfirst _ (by rw [List.length_drop, h16]) h⟩)
  | none =>
    rw [hto4, Option.getD_none, isLoopback, hto4] at h
    exact .inr (.inl (eq_of_beq h))

/-! ## What is accepted -/

def addresses (net : Network) (host : Text) : Option (List IP) :=
  match net.parseIP host with
  | some ip => some [ip]
  | none => (net.lookupIP host).filter fun ips => !ips.isEmpty

/-- The target has the class of its scheme, its addresses are those of the class, and registration gives it the
same class. -/
structure Proper (net : Network) (raw : Text) (cls : ActionTargetURLClass) (parsed : ParsedURL) (ips : List IP) :
    Prop where
  parses : net.url.parse (Text.trimSpace raw) = some parsed
  resolves : addresses net (Text.toLower (Text.trimSpace parsed.hostname)) = some ips
  destinations : (Text.toLower parsed.scheme = "http" ∧ cls = .loopbackHTTP ∧ ∀ ip ∈ ips, Loopback ip) ∨
    (Text.toLower parsed.scheme = "https" ∧ cls = .externalHTTPS ∧ ∀ ip ∈ ips, ¬ Special ip)
  registers : validateActionTargetURLSyntax net raw = .ok cls

def Covered (net : Network) (raw : Text) : Prop :=
  ∀ host ips, parseActionTargetURL net.url raw = .ok (host, .externalHTTPS) → addresses net host = some ips →
    (∃ ip ∈ ips, ip = [] ∨ isDeniedDestinationIP ((to4 ip).getD ip) = true) ∨ ∀ ip ∈ ips, ¬ Missed ip

section

variable {net : Network} {raw host : Text} {cls : ActionTargetURLClass}

theorem parse_ok (h : parseActionTargetURL net.url raw = .ok (host, cls)) :
    ∃ parsed, net.url.parse (Text.trimSpace raw) = some parsed ∧ host = Text.toLower (Text.trimSpace parsed.hostname) ∧
      ((Text.toLower parsed.scheme = "http" ∧ cls = .loopbackHTTP) ∨
        (Text.toLower parsed.scheme = "https" ∧ cls = .externalHTTPS)) := by
  unfold parseActionTargetURL at h
  obtain ⟨-, h⟩ := ok_of_bind_ok h
  obtain ⟨parsed, hparsed, h⟩ := exists_of_bind_ok h
  obtain ⟨-, h⟩ := ok_of_bind_ok h
  obtain ⟨-, h⟩ := ok_of_bind_ok h
  refine ⟨parsed, need_eq_ok.mp hparsed, ?_⟩
  split at h
  · next hhttp =>
    obtain ⟨-, h⟩ := ok_of_bind_ok h
    cases h
    exact ⟨rfl, .inl ⟨hhttp, rfl⟩⟩
  split at h
  · next hhttps =>
    obtain ⟨-, h⟩ := ok_of_bind_ok h
    cases h
    exact ⟨rfl, .inr ⟨hhttps, rfl⟩⟩
  · cases h

theorem classifyIP_eq_none_iff {ip : IP} {requireLoopback : Bool} :
    classifyIP net ip requireLoopback = none ↔ ip ≠ [] ∧
      if requireLoopback = true then isLoopback ((to4 ip).getD ip) = true
      else isDeniedDestinationIP ((to4 ip).getD ip) = false := by
  rw [classifyIP]
  by_cases hnil : ip = []
  · rw [if_pos hnil]
    exact iff_of_false (by simp) fun h => h.1 hnil
  rw [if_neg hnil]
  dsimp only
  cases requireLoopback with
  | true => cases isLoopback ((to4 ip).getD ip) <;> simp [hnil]
  | false => cases isDeniedDestinationIP ((to4 ip).getD ip) <;> simp [hnil]

theorem validateResolvedAddresses_eq_none_iff {requireLoopback : Bool} :
    validateResolvedAddresses net host requireLoopback = none ↔
      ∃ ips, addresses net host = some ips ∧ ∀ ip ∈ ips, classifyIP net ip requireLoopback = none := by
  rw [validateResolvedAddresses, addresses]
  cases net.parseIP host with
  | some ip => simp
  | none =>
    dsimp only
    cases net.lookupIP host with
    | none => simp
    | some ips =>
      cases ips with
      | nil => simp
      | cons ip ips => simp [List.findSome?_eq_none_iff]

theorem passes_eq_ok_iff {problem : Option Text} {cls' : ActionTargetURLClass} :
    passes problem cls = .ok cls' ↔ problem = none ∧ cls = cls' := by
  cases problem <;> simp [passes]

theorem validateActionTargetURL_eq_ok_iff :
    validateActionTargetURL net raw = .ok cls ↔ ∃ host ips, parseActionTargetURL net.url raw = .ok (host, cls) ∧
      addresses net host = some ips ∧ ∀ ip ∈ ips, classifyIP net ip (cls == .loopbackHTTP) = none := by
  rw [validateActionTargetURL]
  constructor
  · intro h
    obtain ⟨⟨host, cls'⟩, hparse, h⟩ := exists_of_bind_ok h
    obtain ⟨hresolved, rfl⟩ := passes_eq_ok_iff.mp h
    obtain ⟨ips, hips, hall⟩ := validateResolvedAddresses_eq_none_iff.mp hresolved
    exact ⟨host, ips, hparse, hips, hall⟩
  · rintro ⟨host, ips, hparse, hips, hall⟩
    rw [hparse]
    exact passes_eq_ok_iff.mpr ⟨validateResolvedAddresses_eq_none_iff.mpr ⟨ips, hips, hall⟩, rfl⟩

theorem registers_of_parse {ips : List IP} (hparse : parseActionTargetURL net.url raw = .ok (host, cls))
    (hips : addresses net host = some ips) (hall : ∀ ip ∈ ips, classifyIP net ip (cls == .loopbackHTTP) = none) :
    validateActionTargetURLSyntax net raw = .ok cls := by
  rw [validateActionTargetURLSyntax, hparse]
  refine passes_eq_ok_iff.mpr ⟨?_, rfl⟩
  rw [addresses] at hips
  cases hliteral : net.parseIP host with
  | none => rfl
  | some ip =>
    rw [hliteral] at hips
    cases hips
    exact hall ip List.mem_cons_self

end

/-- An accepted target is a proper one, whatever the resolver answers, exactly where the tests miss no address. -/
theorem targets_proper_iff (net : Network) (raw : Text) :
    (∀ cls, validateActionTargetURL net raw = .ok cls → ∃ parsed ips, Proper net raw cls parsed ips) ↔
      Covered net raw := by
  constructor
  · intro h host ips hparse hips
    by_contra hmissed
    push Not at hmissed
    obtain ⟨hpass, ip, hip, hmiss⟩ := hmissed
    have haccepted : validateActionTargetURL net raw = .ok .externalHTTPS := by
      refine validateActionTargetURL_eq_ok_iff.mpr ⟨host, ips, hparse, hips, fun ip hip => ?_⟩
      refine classifyIP_eq_none_iff.mpr ⟨(hpass ip hip).1, ?_⟩
      exact Bool.eq_false_iff.mpr (hpass ip hip).2
    obtain ⟨parsed, ips', hproper⟩ := h _ haccepted
    obtain ⟨parsed', hparsed', rfl, -⟩ := parse_ok hparse
    cases hproper.parses.symm.trans hparsed'
    cases hproper.resolves.symm.trans hips
    rcases hproper.destinations with ⟨-, hcls, -⟩ | ⟨-, -, hpublic⟩
    · cases hcls
    · exact hpublic ip hip ((special_iff ip).mpr (.inr hmiss))
  intro hcovered cls haccepted
  obtain ⟨host, ips, hparse, hips, hall⟩ := validateActionTargetURL_eq_ok_iff.mp haccepted
  obtain ⟨parsed, hparsed, hhost, hclass⟩ := parse_ok hparse
  refine ⟨parsed, ips, hparsed, hhost ▸ hips, ?_, registers_of_parse hparse hips hall⟩
  rcases hclass with ⟨hscheme, rfl⟩ | ⟨hscheme, rfl⟩
  · refine .inl ⟨hscheme, rfl, fun ip hip => ?_⟩
    exact loopback_of_isLoopback (classifyIP_eq_none_iff.mp (hall ip hip)).2
  refine .inr ⟨hscheme, rfl, fun ip hip hspecial => ?_⟩
  have hpass (ip : IP) (hip : ip ∈ ips) : ip ≠ [] ∧ isDeniedDestinationIP ((to4 ip).getD ip) = false :=
    classifyIP_eq_none_iff.mp (hall ip hip)
  rcases hcovered host ips hparse hips with ⟨ip', hip', hrefused⟩ | hnone
  · rcases hrefused with hnil | hdenied
    · exact (hpass ip' hip').1 hnil
    · rw [(hpass ip' hip').2] at hdenied
      cases hdenied
  rcases (special_iff ip).mp hspecial with hdenied | hmiss
  · rw [(hpass ip hip).2] at hdenied
    cases hdenied
  · exact hnone ip hip hmiss

section Sample

def answering (ips : List IP) : Network := ⟨httpsURLs, fun _ => none, fun _ => some ips, fun _ => []⟩

def translated : IP := [0x00, 0x64, 0xff, 0x9b, 0, 0, 0, 0, 0, 0, 0, 0, 169, 254, 169, 254]

theorem not_proper_of_special {ip : IP} (h : Special ip) :
    ¬ ∃ parsed ips, Proper (answering [ip]) "https://target.example/" .externalHTTPS parsed ips := by
  rintro ⟨parsed, ips, hproper⟩
  obtain rfl : [ip] = ips := Option.some.inj hproper.resolves
  rcases hproper.destinations with ⟨-, hcls, -⟩ | ⟨-, -, hpublic⟩
  · cases hcls
  · exact hpublic ip List.mem_cons_self h

/-- A reserved address and an embedded link-local one are accepted as public destinations. -/
theorem missed_addresses_accepted :
    (validateActionTargetURL (answering [[240, 0, 0, 1]]) "https://target.example/".toList = .ok .externalHTTPS ∧
      ¬ ∃ parsed ips, Proper (answering [[240, 0, 0, 1]]) "https://target.example/".toList .externalHTTPS parsed ips) ∧
    (validateActionTargetURL (answering [translated]) "https://target.example/".toList = .ok .externalHTTPS ∧
      ¬ ∃ parsed ips, Proper (answering [translated]) "https://target.example/".toList .externalHTTPS parsed ips) := by
  refine ⟨⟨by decide +kernel, not_proper_of_special (.inl ?_)⟩, by decide +kernel,
    not_proper_of_special (.inr (.inr ?_))⟩
  · exact ⟨⟨[240, 0, 0, 0], 4⟩, by simp [blocks4], by decide⟩
  · exact ⟨[169, 254, 169, 254], by decide, ⟨[169, 254, 0, 0], 16⟩, by simp [blocks4], by decide⟩

end Sample

end Overture.TargetAddresses
