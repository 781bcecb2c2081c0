import OfAgent.Dpctl.FlowText
import OfAgent.Dpctl.MatchText
import OfAgent.Lib.Separated

/-!
# Values that are printed and read

The texts that `ofp_match_to_string` makes of the values of a match are read by `str_to_flow` as
the same values.

* `strToU32_decimal`, `strToU32_hexadecimal`: numbers.
* `strToMac_ethAddr`: Ethernet addresses.
* `strToIp_addressText`: addresses with a prefix length; `inetAton_dottedQuad`.
* `IsWord`: the characters of a value, none of which ends it or makes it a wildcard.
-/

namespace OfAgent.Dpctl

/-! ### Numbers -/

/-- A number that `strtoul` finds in the whole text. -/
theorem strToU32_of_scan (p : Platform) {str : List Char} {n : ℕ}
    (hscan : Numeral.scan 0 str = some ((n : ℤ), [])) (hn : n < 2 ^ 32) :
    strToU32 p str = .ok (.ofNat 32 n) := by
  have hlong : ¬ (2 ^ p.longBits ≤ (n : ℤ).natAbs ∨ ([] : List Char) ≠ []) := by
    have hle : 2 ^ 32 ≤ 2 ^ p.longBits := Nat.pow_le_pow_right (by decide) p.le_longBits
    simp only [Int.natAbs_natCast, ne_eq, not_true_eq_false, or_false]
    omega
  unfold strToU32
  rw [hscan]
  simp only [Option.getD_some, if_neg hlong, BitVec.ofInt_natCast]

theorem strToU32_decimal (p : Platform) {n : ℕ} (hn : n < 2 ^ 32) :
    strToU32 p (decimal n) = .ok (.ofNat 32 n) := by
  apply strToU32_of_scan p _ hn
  have hscan := Numeral.scan_zero_decimal n Numeral.ends_nil
  rwa [List.append_nil] at hscan

/-- A number with the prefix of base sixteen. -/
theorem strToU32_hexadecimal (p : Platform) (width : ℕ) {n : ℕ} (hn : n < 2 ^ 32) :
    strToU32 p (hexadecimal width n) = .ok (.ofNat 32 n) := by
  apply strToU32_of_scan p _ hn
  have hscan := Numeral.scan_zero_hex width n Numeral.ends_nil
  rwa [List.append_nil] at hscan

theorem atoi_decimal (n : ℕ) : atoi (decimal n) = n := by
  have hscan : Decimal.scan (Decimal.ofInt (n : ℤ) ++ []) = some ((n : ℤ), []) :=
    Decimal.scan_ofInt_append (n : ℤ) fun c hc => by cases hc
  have htext : Decimal.ofInt (n : ℤ) = decimal n := by
    rw [Decimal.ofInt, if_neg (by omega), Int.natAbs_natCast, decimal]
  rw [List.append_nil, htext] at hscan
  rw [atoi, hscan]

/-! ### Ethernet addresses -/

/-- The six bytes of an Ethernet address, read where they have been written. -/
theorem get48_ofBytes_bytes48 (ea : BitVec 48) : (Memory.ofBytes (bytes48 ea)).get48 0 = ea := by
  have hhigh : (Memory.ofBytes (bytes48 ea)).get16 0 = ea.extractLsb' 32 16 :=
    Memory.be16_bytes16 _ (Memory.bytes32 (ea.extractLsb' 0 32))
  have hlow : (Memory.ofBytes (bytes48 ea)).get32 (0 + 2) = ea.extractLsb' 0 32 := by
    have hfirst : (Memory.ofBytes (bytes48 ea)).get16 (0 + 2) =
        (ea.extractLsb' 0 32).extractLsb' 16 16 :=
      Memory.be16_bytes16 _ (Memory.bytes16 ((ea.extractLsb' 0 32).extractLsb' 0 16))
    have hsecond : (Memory.ofBytes (bytes48 ea)).get16 (0 + 2 + 2) =
        (ea.extractLsb' 0 32).extractLsb' 0 16 :=
      Memory.be16_bytes16 _ []
    rw [Memory.get32, hfirst, hsecond]
    exact (BitVec.extractLsb'_append_extractLsb'_eq_extractLsb' rfl).trans
      BitVec.extractLsb'_eq_self
  rw [Memory.get48, hhigh, hlow]
  exact (BitVec.extractLsb'_append_extractLsb'_eq_extractLsb' rfl).trans BitVec.extractLsb'_eq_self

/-- Bytes whose numbers have been printed. -/
theorem map_ofInt_natCast (bs : List Byte) :
    (bs.map fun b => ((b.toNat : ℕ) : ℤ)).map (BitVec.ofInt 8) = bs := by
  rw [List.map_map]
  conv_rhs => rw [← List.map_id bs]
  apply List.map_congr_left
  intro b _
  simp

/-- An Ethernet address. -/
theorem strToMac_ethAddr (ea : BitVec 48) : strToMac (ethAddr ea) = .ok ea := by
  have hscan : Numeral.scanFields 16 ':' 6 (ethAddr ea) =
      (bytes48 ea).map fun b => ((b.toNat : ℕ) : ℤ) := by
    have hfields := Numeral.scanFields_intercalate (show 1 < 16 by decide) (by decide) 2
      (show Numeral.isDigit 16 ':' = false by decide) (by decide) ((bytes48 ea).map BitVec.toNat)
    rw [List.map_map, List.map_map] at hfields
    exact hfields
  have hlen : ¬ ((bytes48 ea).map fun b => ((b.toNat : ℕ) : ℤ)).length ≠ 6 := by
    rw [List.length_map]
    exact fun hne => hne rfl
  unfold strToMac
  simp only [hscan, if_neg hlen, map_ofInt_natCast, get48_ofBytes_bytes48]

/-! ### Internet addresses -/

/-- One part of an address, with a period behind it. -/
theorem inetParts_append_cons (k : ℕ) (b : Byte) (rest : List Char) :
    inetParts (k + 1) (Nat.toDigits 10 b.toNat ++ '.' :: rest) =
      (inetParts k rest).map fun (parts, rest) => (b.toNat :: parts, rest) := by
  have hb := b.isLt
  have hscan := Numeral.scan_zero_decimal b.toNat
    (Numeral.ends_cons rest (show Numeral.isDigit 10 '.' = false by decide) (by decide))
  have hhead : (Nat.toDigits 10 b.toNat ++ '.' :: rest).head?.any Char.isDigit = true := by
    obtain ⟨c, ds, hds⟩ := List.exists_cons_of_ne_nil (byteDigits_spec b).1
    rw [hds]
    exact (byteDigits_spec b).2.2 c (hds ▸ List.mem_cons_self)
  rw [inetParts.eq_def]
  simp only [hhead, hscan, if_true, List.head?_cons, List.tail_cons, Int.natAbs_natCast]
  rw [if_neg (by omega)]

/-- The last part of an address. -/
theorem inetParts_toDigits (k : ℕ) (b : Byte) :
    inetParts k (Nat.toDigits 10 b.toNat) = some ([b.toNat], []) := by
  have hscan := Numeral.scan_zero_decimal b.toNat Numeral.ends_nil
  have hhead : (Nat.toDigits 10 b.toNat).head?.any Char.isDigit = true := by
    obtain ⟨c, ds, hds⟩ := List.exists_cons_of_ne_nil (byteDigits_spec b).1
    rw [hds]
    exact (byteDigits_spec b).2.2 c (hds ▸ List.mem_cons_self)
  rw [List.append_nil] at hscan
  rw [inetParts.eq_def]
  simp [hhead, hscan]

/-- The four bytes of an address, put together again. -/
theorem append_bytes32 (ip : BitVec 32) {a b c d : Byte} (h : Memory.bytes32 ip = [a, b, c, d]) :
    a ++ b ++ c ++ d = ip := by
  have hip := Memory.be32_bytes32 ip
  rw [h] at hip
  rw [← hip, BitVec.append_assoc]
  rfl

/-- `inet_aton` reads what is printed of an address. -/
theorem inetAton_dottedQuad (ip : BitVec 32) : inetAton (dottedQuad ip) = some ip := by
  obtain ⟨a, b, c, d, hbytes⟩ : ∃ a b c d, Memory.bytes32 ip = [a, b, c, d] := ⟨_, _, _, _, rfl⟩
  have htext : dottedQuad ip = Nat.toDigits 10 a.toNat ++ '.' :: (Nat.toDigits 10 b.toNat ++
      '.' :: (Nat.toDigits 10 c.toNat ++ '.' :: Nat.toDigits 10 d.toNat)) := by
    rw [dottedQuad, hbytes]
    simp [List.intercalate]
  have hparts : inetParts 3 (dottedQuad ip) = some ([a.toNat, b.toNat, c.toNat, d.toNat], []) := by
    rw [htext, inetParts_append_cons, inetParts_append_cons, inetParts_append_cons,
      inetParts_toDigits]
    rfl
  have hd := d.isLt
  rw [inetAton, hparts]
  simp only [List.head?_nil, Option.all_none, if_true, if_pos hd, BitVec.ofNat_toNat,
    BitVec.setWidth_eq, append_bytes32 ip hbytes]

/-! ### Characters -/

/-- A character of which the values of fields are made. -/
def isWordChar (c : Char) : Bool := Numeral.isDigit 16 c || "x:./".toList.contains c

/-- A text of such characters that is not empty. -/
structure IsWord (text : List Char) : Prop where
  /-- It has a character. -/
  ne_nil : text ≠ []
  /-- It has no other ones. -/
  isWordChar_of_mem : ∀ c ∈ text, isWordChar c = true

theorem isWord_decimal (n : ℕ) : IsWord (decimal n) := by
  refine ⟨Nat.toDigits_ne_nil, fun c hc => ?_⟩
  have hdigit := Numeral.isDigit_of_mem_toDigits (show 1 < 10 by decide) (by decide) hc
  rw [isWordChar, Numeral.isDigit_mono (by decide) hdigit, Bool.true_or]

/-- A value with the prefix of base sixteen. -/
theorem isWord_hexadecimal (width n : ℕ) : IsWord (hexadecimal width n) := by
  refine ⟨List.cons_ne_nil _ _, fun c hc => ?_⟩
  obtain rfl | hc := List.mem_cons.1 hc
  · decide
  obtain rfl | hc := List.mem_cons.1 hc
  · decide
  rw [isWordChar, Numeral.isDigit_of_mem_ofNat (by decide) (by decide) hc, Bool.true_or]

/-- An Ethernet address. -/
theorem isWord_ethAddr (ea : BitVec 48) : IsWord (ethAddr ea) := by
  refine ⟨?_, fun c hc => ?_⟩
  · intro hnil
    have hmac := strToMac_ethAddr ea
    rw [hnil] at hmac
    cases hmac
  · obtain rfl | ⟨group, hgroup, hc⟩ := Separated.mem_intercalate hc
    · decide
    · obtain ⟨b, -, rfl⟩ := List.mem_map.1 hgroup
      rw [isWordChar, Numeral.isDigit_of_mem_ofNat (by decide) (by decide) hc, Bool.true_or]

/-- An Internet address: there are only digits and periods in it. -/
theorem of_mem_dottedQuad {ip : BitVec 32} {c : Char} (h : c ∈ dottedQuad ip) :
    c = '.' ∨ Numeral.isDigit 10 c = true := by
  obtain rfl | ⟨group, hgroup, hc⟩ := Separated.mem_intercalate h
  · exact .inl rfl
  · obtain ⟨b, -, rfl⟩ := List.mem_map.1 hgroup
    exact .inr (Numeral.isDigit_of_mem_toDigits (by decide) (by decide) hc)

theorem dottedQuad_ne_nil (ip : BitVec 32) : dottedQuad ip ≠ [] := by
  intro hnil
  have haddr := inetAton_dottedQuad ip
  rw [hnil] at haddr
  cases haddr

/-! ### Addresses with a prefix length -/

/-- The text of an address with so many wild bits. -/
def addressText (ip : BitVec 32) (nWild : ℕ) : List Char :=
  dottedQuad ip ++ if nWild ≠ 0 then '/' :: decimal (32 - nWild) else []

/-- A prefix length is no netmask, and leaves the other bits. -/
theorem wildOfNetmask_decimal (str : List Char) {n : ℕ} (hpos : 0 < n) (hle : n ≤ 32) :
    wildOfNetmask str (decimal n) = .ok (32 - n) := by
  have hscan : Numeral.scanFields 10 '.' 4 (decimal n) = [(n : ℤ)] := by
    have hscan := Numeral.scan_append (show 1 < 10 by decide) (by decide) 0 n Numeral.ends_nil
    have htext : Numeral.ofNat 10 0 n = decimal n := by simp [Numeral.ofNat, List.leftpad, decimal]
    rw [List.append_nil, htext] at hscan
    simp [Numeral.scanFields, hscan]
  unfold wildOfNetmask
  rw [hscan]
  simp only [atoi_decimal]
  rw [if_neg (by omega)]
  exact congrArg Except.ok (by omega)

theorem ne_slash_of_isDigit {c : Char} (h : Numeral.isDigit 10 c = true) : (c == '/') = false := by
  rw [beq_eq_false_iff_ne]
  rintro rfl
  exact absurd h (by decide)

/-- The text of an address is a value. -/
theorem isWord_addressText (ip : BitVec 32) (nWild : ℕ) : IsWord (addressText ip nWild) := by
  refine ⟨List.append_ne_nil_of_left_ne_nil (dottedQuad_ne_nil ip) _, fun c hc => ?_⟩
  obtain hc | hc := List.mem_append.1 hc
  · obtain rfl | hdigit := of_mem_dottedQuad hc
    · decide
    · rw [isWordChar, Numeral.isDigit_mono (by decide) hdigit, Bool.true_or]
  · split at hc
    · obtain rfl | hc := List.mem_cons.1 hc
      · decide
      · exact (isWord_decimal _).isWordChar_of_mem c hc
    · cases hc

/-- An address with its prefix length. -/
theorem strToIp_addressText (p : Platform) (ip : BitVec 32) {nWild : ℕ} (h : nWild < 32) :
    strToIp p (addressText ip nWild) = .ok (ip, nWild) := by
  have hplain : Tokens.Plain (· == '/') (dottedQuad ip) := by
    refine ⟨dottedQuad_ne_nil ip, fun c hc => ?_⟩
    obtain rfl | hdigit := of_mem_dottedQuad hc
    · decide
    · exact ne_slash_of_isDigit hdigit
  have hlookup : p.lookupIp (dottedQuad ip) = some ip := by
    rw [Platform.lookupIp, inetAton_dottedQuad]
  obtain rfl | hpos := Nat.eq_zero_or_pos nWild
  · have htext : addressText ip 0 = dottedQuad ip := by simp [addressText]
    unfold strToIp
    rw [htext, Tokens.next_of_plain hplain]
    simp only [hlookup, Tokens.next_nil]
  · have htext : addressText ip nWild = dottedQuad ip ++ '/' :: decimal (32 - nWild) := by
      rw [addressText, if_pos hpos.ne']
    have hmask : Tokens.Plain (· == '/') (decimal (32 - nWild)) :=
      ⟨Nat.toDigits_ne_nil, fun c hc =>
        ne_slash_of_isDigit (Numeral.isDigit_of_mem_toDigits (by decide) (by decide) hc)⟩
    unfold strToIp
    rw [htext, Tokens.next_append_cons hplain (by decide)]
    simp only [hlookup, Tokens.next_of_plain hmask]
    rw [wildOfNetmask_decimal _ (by omega) (by omega)]
    exact congrArg (fun n => Except.ok (ip, n)) (by omega)

/-! ### Words -/

variable {text : List Char}

theorem IsWord.plain (h : IsWord text) : Tokens.Plain valueDelim text := by
  refine ⟨h.ne_nil, fun c hc => ?_⟩
  have hword := h.isWordChar_of_mem c hc
  rw [Bool.eq_false_iff]
  intro hdelim
  have hmem : c ∈ ", \t\r\n".toList := List.elem_iff.1 hdelim
  have hnone : ", \t\r\n".toList.any isWordChar = false := by decide
  exact List.any_eq_false.1 hnone c hmem hword

theorem IsWord.ne_wildcard (h : IsWord text) : ¬ (text = ['*'] ∨ text = "ANY".toList) := by
  rintro (rfl | rfl)
  · exact absurd (h.isWordChar_of_mem '*' (by decide)) (by decide)
  · exact absurd (h.isWordChar_of_mem 'N' (by decide)) (by decide)

end OfAgent.Dpctl
