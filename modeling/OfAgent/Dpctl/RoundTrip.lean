import OfAgent.Dpctl.Values

/-!
# Matches that are printed and read

`str_to_flow` reads the text that `ofp_match_to_string` prints for a match: the fields that are
exact have their values again, and the others are wild.

* `MatchField.wildcard`, `MatchField.isWild`: the bits of a field in the wildcards, and whether it
  is wild. `Same`: two matches with the same wildcards and the same exact values.
* `Untouched`, `Settled`: how a field stands while the text is read. `Valid`: what holds of all.
* `Reads`: what a part of a text does. `Reads.append`: two parts; `reads_printWild`: a field;
  `reads_shorthand`: the name in front.
* `strToFlow_ofpMatchToString`.
-/

namespace OfAgent.Dpctl

/-! ### Fields of a match -/

/-- The bits of a member in the wildcards. -/
def MatchField.wildcard : MatchField → BitVec 32
  | inPort => ofpfwInPort
  | dlVlan => ofpfwDlVlan
  | dlVlanPcp => ofpfwDlVlanPcp
  | dlSrc => ofpfwDlSrc
  | dlDst => ofpfwDlDst
  | dlType => ofpfwDlType
  | nwTos => ofpfwNwTos
  | nwProto => ofpfwNwProto
  | nwSrc => ofpfwNwSrcMask
  | nwDst => ofpfwNwDstMask
  | tpSrc => ofpfwTpSrc
  | tpDst => ofpfwTpDst

/-- The number of wild bits of the source address. -/
def nwSrcWild (om : OfpMatch) : BitVec 32 := (om.wildcards &&& ofpfwNwSrcMask) >>> ofpfwNwSrcShift

/-- The number of wild bits of the destination address. -/
def nwDstWild (om : OfpMatch) : BitVec 32 := (om.wildcards &&& ofpfwNwDstMask) >>> ofpfwNwDstShift

/-- A field is wild: its bit is set, or no bit of the address is left. -/
def MatchField.isWild (om : OfpMatch) : MatchField → Bool
  | nwSrc => decide (32 ≤ (nwSrcWild om).toNat)
  | nwDst => decide (32 ≤ (nwDstWild om).toNat)
  | inPort => om.wildcards &&& ofpfwInPort != 0
  | dlVlan => om.wildcards &&& ofpfwDlVlan != 0
  | dlVlanPcp => om.wildcards &&& ofpfwDlVlanPcp != 0
  | dlSrc => om.wildcards &&& ofpfwDlSrc != 0
  | dlDst => om.wildcards &&& ofpfwDlDst != 0
  | dlType => om.wildcards &&& ofpfwDlType != 0
  | nwTos => om.wildcards &&& ofpfwNwTos != 0
  | nwProto => om.wildcards &&& ofpfwNwProto != 0
  | tpSrc => om.wildcards &&& ofpfwTpSrc != 0
  | tpDst => om.wildcards &&& ofpfwTpDst != 0

/-- The bits of the two numbers of wild bits. -/
def nwMasks : BitVec 32 := ofpfwNwSrcMask ||| ofpfwNwDstMask

/-- A match with the same wildcards as another one, where thirty-two wild bits and more are all of
an address, and with the same values where that one is not wild. -/
structure Same (om om' : OfpMatch) : Prop where
  /-- The other wildcards are the same. -/
  wildcards : om'.wildcards &&& ~~~nwMasks = om.wildcards &&& ~~~nwMasks
  /-- So is what is wild of the source address. -/
  nwSrcWild : min 32 (nwSrcWild om').toNat = min 32 (nwSrcWild om).toNat
  /-- And of the destination address. -/
  nwDstWild : min 32 (nwDstWild om').toNat = min 32 (nwDstWild om).toNat
  /-- The values are the same. -/
  values : ∀ f : MatchField, f.isWild om = false → f.get om' = f.get om

theorem MatchField.wildcard_and_wildcard {f g : MatchField} (h : f ≠ g) :
    f.wildcard &&& g.wildcard = 0 := by
  cases f <;> cases g <;> first | decide | exact absurd rfl h

theorem MatchField.all_and_wildcard (f : MatchField) : ofpfwAll &&& f.wildcard = f.wildcard := by
  cases f <;> decide

theorem MatchField.wildcard_and_all (f : MatchField) : f.wildcard &&& ~~~ofpfwAll = 0 := by
  cases f <;> decide

/-- The member that has been set. -/
@[simp]
theorem MatchField.get_set_self (om : OfpMatch) (f : MatchField) (v : BitVec f.type.width) :
    f.get (f.set om v) = v := by
  cases f <;> rfl

theorem MatchField.get_set_of_ne (om : OfpMatch) {f g : MatchField} (h : g ≠ f)
    (v : BitVec f.type.width) : g.get (f.set om v) = g.get om := by
  cases f <;> cases g <;> first | rfl | exact absurd rfl h

/-! ### Bits -/

section Bits

variable {n : ℕ} {w m b k : BitVec n}

/-- The bits under a mask after they have been replaced. -/
theorem and_replace (hb : b &&& m = b) : (w &&& ~~~m ||| b) &&& m = b := by
  ext i hi
  have hbit := congrArg (fun v : BitVec n => v[i]) hb
  simp only [BitVec.getElem_and, BitVec.getElem_or, BitVec.getElem_not] at hbit ⊢
  grind

theorem and_replace_of_disjoint (hb : b &&& m = b) (hk : m &&& k = 0) :
    (w &&& ~~~m ||| b) &&& k = w &&& k := by
  ext i hi
  have hbit := congrArg (fun v : BitVec n => v[i]) hb
  have hdisjoint := congrArg (fun v : BitVec n => v[i]) hk
  simp only [BitVec.getElem_and, BitVec.getElem_or, BitVec.getElem_not] at hbit hdisjoint ⊢
  grind

/-- The bits under a mask are shifted there and back. -/
theorem and_shiftLeft_ushiftRight {s : ℕ} (hm : (m >>> s) <<< s = m) :
    ((w &&& m) >>> s) <<< s = w &&& m := by
  ext i hi
  have hbit := congrArg (fun v : BitVec n => v[i]) hm
  simp only [BitVec.getElem_shiftLeft, BitVec.getElem_and] at hbit ⊢
  grind

theorem or_zero_bits (w : BitVec n) : w ||| 0 = w := BitVec.or_zero

theorem and_foldr_congr {ι : Type} {w' : BitVec n} {mask : ι → BitVec n} {l : List ι}
    (hk : w &&& k = w' &&& k) (hl : ∀ i ∈ l, w &&& mask i = w' &&& mask i) :
    w &&& l.foldr (fun i m => mask i ||| m) k = w' &&& l.foldr (fun i m => mask i ||| m) k := by
  induction l with
  | nil => exact hk
  | cons i l ih =>
    rw [List.foldr_cons, BitVec.and_or_distrib_left, BitVec.and_or_distrib_left,
      hl i List.mem_cons_self, ih fun j hj => hl j (List.mem_cons_of_mem _ hj)]

theorem and_twoPow_of_ne_zero {i : ℕ} (h : w &&& BitVec.twoPow n i ≠ 0) :
    w &&& BitVec.twoPow n i = BitVec.twoPow n i := by
  rw [BitVec.and_twoPow] at h ⊢
  split
  next => rfl
  next hbit => exact absurd (if_neg hbit) h

end Bits

/-! ### The loop -/

variable {p : Platform} {st st' : FlowSpec} {name value rest : List Char}

theorem parseFlow_nil : parseFlow p st [] = .ok st := by
  unfold parseFlow
  rfl

/-- The name of a protocol, up to the comma. -/
theorem parseFlow_protocol {protocol : Protocol} (hname : Tokens.Plain nameDelim name)
    (hprotocol : parseProtocol name = some protocol) :
    parseFlow p st (name ++ ',' :: rest) = parseFlow p (st.protocol protocol) rest := by
  have hnext : Tokens.next nameDelim (name ++ ',' :: rest) = some (name, rest) :=
    Tokens.next_append_cons hname (by decide)
  conv_lhs => unfold parseFlow
  split
  next hnone =>
    rw [hnext] at hnone
    cases hnone
  next hsome =>
    rw [hnext] at hsome
    cases hsome
    rw [hprotocol]

/-- The name of a field with its value, up to the comma. -/
theorem parseFlow_field (hname : Tokens.Plain nameDelim name)
    (hprotocol : parseProtocol name = none) (hvalue : Tokens.Plain valueDelim value)
    (hassign : st.assign p name value = .ok st') :
    parseFlow p st (name ++ '=' :: (value ++ ',' :: rest)) = parseFlow p st' rest := by
  have hnext : Tokens.next nameDelim (name ++ '=' :: (value ++ ',' :: rest)) =
      some (name, value ++ ',' :: rest) := Tokens.next_append_cons hname (by decide)
  have hnext' : Tokens.next valueDelim (value ++ ',' :: rest) = some (value, rest) :=
    Tokens.next_append_cons hvalue (by decide)
  conv_lhs => unfold parseFlow
  split
  next hnone =>
    rw [hnext] at hnone
    cases hnone
  next hsome =>
    rw [hnext] at hsome
    cases hsome
    rw [hprotocol]
    simp only
    split
    next hnone =>
      rw [hnext'] at hnone
      cases hnone
    next hsome =>
      rw [hnext'] at hsome
      cases hsome
      rw [hassign]

/-- The names of the other values that a caller may want. -/
def optionNames : List (List Char) :=
  ["table".toList, "out_port".toList, "priority".toList, "idle_timeout".toList,
    "hard_timeout".toList, "cookie".toList]

theorem FlowOptions.assign_of_not_mem (o : FlowOptions) (value : List Char)
    (h : name ∉ optionNames) : o.assign name value = none := by
  simp only [optionNames, List.mem_cons, List.not_mem_nil, or_false, not_or] at h
  obtain ⟨h1, h2, h3, h4, h5, h6⟩ := h
  simp only [FlowOptions.assign, h1, h2, h3, h4, h5, h6, and_false, if_false]

/-- The names of fields are tokens, and neither names of protocols nor of other values. Their bits
are the ones of their members. -/
theorem parseField_spec {row : Field} (h : parseField name = some row) :
    Tokens.Plain nameDelim name ∧ parseProtocol name = none ∧ name ∉ optionNames ∧
      row.wildcard = row.member.wildcard := by
  have hrows : ∀ row ∈ fields, row.name ≠ [] ∧ row.name.any nameDelim = false ∧
      (parseProtocol row.name).isNone = true ∧ row.name ∉ optionNames ∧
      row.wildcard = row.member.wildcard := by
    decide
  have hname : row.name = name := by
    have hfound := List.find?_some h
    exact of_decide_eq_true hfound
  obtain ⟨hne, hdelim, hprotocol, hoption, hwildcard⟩ := hrows row (List.mem_of_find?_eq_some h)
  rw [hname] at hne hdelim hprotocol hoption
  have hplain : Tokens.Plain nameDelim name :=
    ⟨hne, fun c hc => Bool.eq_false_iff.2 (List.any_eq_false.1 hdelim c hc)⟩
  exact ⟨hplain, Option.isNone_iff_eq_none.1 hprotocol, hoption, hwildcard⟩

/-- The names of protocols are tokens. -/
theorem parseProtocol_spec {protocol : Protocol} (h : parseProtocol name = some protocol) :
    Tokens.Plain nameDelim name := by
  have hrows : ∀ protocol ∈ protocols,
      protocol.name ≠ [] ∧ protocol.name.any nameDelim = false := by
    decide
  have hname : protocol.name = name := by
    have hfound := List.find?_some h
    exact of_decide_eq_true hfound
  obtain ⟨hne, hdelim⟩ := hrows protocol (List.mem_of_find?_eq_some h)
  rw [hname] at hne hdelim
  exact ⟨hne, fun c hc => Bool.eq_false_iff.2 (List.any_eq_false.1 hdelim c hc)⟩

/-! ### Progress -/

variable {om : OfpMatch} {options : FlowOptions} {f g : MatchField}

/-- A field of which nothing has been read: it is wild. -/
def Untouched (st : FlowSpec) (f : MatchField) : Prop :=
  st.wildcards &&& f.wildcard = f.wildcard ∧ f.get st.om = 0

/-- A field that stands as in the match that has been printed. -/
def Settled (om : OfpMatch) (st : FlowSpec) (f : MatchField) : Prop :=
  if f.isWild om = true then Untouched st f
  else st.wildcards &&& f.wildcard = om.wildcards &&& f.wildcard ∧ f.get st.om = f.get om

/-- What holds while the text of a match is read. -/
structure Valid (om : OfpMatch) (options : FlowOptions) (st : FlowSpec) : Prop where
  /-- Nothing else is assigned. -/
  options_eq : st.options = options
  /-- There are no other wildcards. -/
  wildcards_and : st.wildcards &&& ~~~ofpfwAll = 0
  /-- Each field has been read or not. -/
  untouched_or_settled : ∀ f, Untouched st f ∨ Settled om st f

/-- The variables with a field that has been read. -/
def FlowSpec.settle (om : OfpMatch) (st : FlowSpec) (f : MatchField) : FlowSpec :=
  { st with
    wildcards := st.wildcards &&& ~~~f.wildcard ||| om.wildcards &&& f.wildcard
    om := f.set st.om (f.get om) }

/-- A field that is wild is untouched when it is settled, and while it is not. -/
theorem Valid.untouched (hv : Valid om options st) (hwild : f.isWild om = true) :
    Untouched st f := by
  obtain hf | hf := hv.untouched_or_settled f
  · exact hf
  · rwa [Settled, if_pos hwild] at hf

/-- The bits and the value of a field depend on what is read of it alone. -/
theorem settle_of_ne (om : OfpMatch) (st : FlowSpec) (h : g ≠ f) :
    (st.settle om f).wildcards &&& g.wildcard = st.wildcards &&& g.wildcard ∧
      g.get (st.settle om f).om = g.get st.om := by
  refine ⟨and_replace_of_disjoint ?_ (MatchField.wildcard_and_wildcard h.symm), ?_⟩
  · rw [BitVec.and_assoc, BitVec.and_self]
  · exact MatchField.get_set_of_ne _ h _

/-- A field that is exact is settled by its value. -/
theorem settled_settle (st : FlowSpec) (hexact : f.isWild om = false) :
    Settled om (st.settle om f) f := by
  rw [Settled, if_neg (by simp [hexact])]
  refine ⟨and_replace ?_, MatchField.get_set_self _ f _⟩
  rw [BitVec.and_assoc, BitVec.and_self]

theorem settled_settle_of_ne (h : g ≠ f) : Settled om (st.settle om f) g ↔ Settled om st g := by
  obtain ⟨hbits, hvalue⟩ := settle_of_ne om st h
  rw [Settled, Settled, Untouched, Untouched, hbits, hvalue]

/-- Settled fields stay so when another one is read. -/
theorem Settled.settle (hexact : f.isWild om = false) (hg : g = f ∨ Settled om st g) :
    Settled om (st.settle om f) g := by
  by_cases h : g = f
  · rw [h]
    exact settled_settle st hexact
  · exact (settled_settle_of_ne h).2 (hg.resolve_left h)

/-- What holds while the text is read is kept. -/
theorem Valid.settle (hv : Valid om options st) (hexact : f.isWild om = false) :
    Valid om options (st.settle om f) := by
  refine ⟨hv.options_eq, ?_, fun g => ?_⟩
  · refine (and_replace_of_disjoint ?_ f.wildcard_and_all).trans hv.wildcards_and
    rw [BitVec.and_assoc, BitVec.and_self]
  · by_cases h : g = f
    · rw [h]
      exact .inr (settled_settle st hexact)
    · obtain ⟨hbits, hvalue⟩ := settle_of_ne om st h
      apply (hv.untouched_or_settled g).imp _ (settled_settle_of_ne h).2
      intro hg
      rwa [Untouched, hbits, hvalue]

/-- What a part of the text does: it is read up to its end, and settles some fields. -/
def Reads (p : Platform) (om : OfpMatch) (options : FlowOptions) (text : List Char)
    (fs : List MatchField) : Prop :=
  ∀ st rest, Valid om options st → ∃ st', parseFlow p st (text ++ rest) = parseFlow p st' rest ∧
    Valid om options st' ∧ ∀ f, f ∈ fs ∨ Settled om st f → Settled om st' f

/-- Nothing settles the fields that are wild. -/
theorem reads_nil {fs : List MatchField} (h : ∀ f ∈ fs, f.isWild om = true) :
    Reads p om options [] fs := by
  intro st rest hv
  refine ⟨st, rfl, hv, fun f hf => ?_⟩
  obtain hf | hf := hf
  · rw [Settled, if_pos (h f hf)]
    exact hv.untouched (h f hf)
  · exact hf

/-- Two parts one behind the other. -/
theorem Reads.append {text text' : List Char} {fs fs' : List MatchField}
    (h : Reads p om options text fs) (h' : Reads p om options text' fs') :
    Reads p om options (text ++ text') (fs ++ fs') := by
  intro st rest hv
  obtain ⟨st₁, hparse₁, hv₁, hsettled₁⟩ := h st (text' ++ rest) hv
  obtain ⟨st₂, hparse₂, hv₂, hsettled₂⟩ := h' st₁ rest hv₁
  refine ⟨st₂, ?_, hv₂, fun f hf => ?_⟩
  · rw [List.append_assoc, hparse₁, hparse₂]
  · apply hsettled₂
    rw [List.mem_append, or_assoc] at hf
    obtain hf | hf | hf := hf
    · exact .inr (hsettled₁ f (.inl hf))
    · exact .inl hf
    · exact .inr (hsettled₁ f (.inr hf))

/-- A part that settles one field, in front of another part. -/
theorem Reads.cons {text text' : List Char} {fs : List MatchField}
    (h : Reads p om options text [f]) (h' : Reads p om options text' fs) :
    Reads p om options (text ++ text') (f :: fs) :=
  h.append h'

/-! ### Fields -/

/-- A field with a mark for its value stays wild. -/
theorem wild_of_untouched {row : Field} (hwildcard : row.wildcard = row.member.wildcard)
    (h : Untouched st row.member) : st.wild row = st := by
  have hbits : st.wildcards ||| row.wildcard = st.wildcards := by
    rw [hwildcard]
    ext i hi
    have hbit := congrArg (fun v : BitVec 32 => v[i]) h.1
    simp only [BitVec.getElem_and, BitVec.getElem_or] at hbit ⊢
    grind
  rw [FlowSpec.wild, hbits]

/-- A field with its value. -/
theorem reads_value {row : Field} {n : ℕ} (hname : parseField name = some row)
    (hword : IsWord value) (hexact : row.member.isWild om = false)
    (hvalue : parseValue p value row.member.type = .ok (row.member.get om, n))
    (hbits : BitVec.ofNat 32 n <<< row.shift = om.wildcards &&& row.member.wildcard) :
    Reads p om options (name ++ '=' :: (value ++ [','])) [row.member] := by
  obtain ⟨hplain, hprotocol, hoption, hwildcard⟩ := parseField_spec hname
  intro st rest hv
  refine ⟨st.settle om row.member, ?_, hv.settle hexact, fun f hf => ?_⟩
  · have hassign : st.assign p name value = .ok (st.settle om row.member) := by
      unfold FlowSpec.assign
      rw [FlowOptions.assign_of_not_mem _ _ hoption, hname]
      simp only [if_neg hword.ne_wildcard, hvalue, Except.map]
      rw [FlowSpec.store, hwildcard, hbits]
      rfl
    rw [List.append_assoc, List.cons_append, List.append_assoc]
    exact parseFlow_field hplain hprotocol hword.plain hassign
  · rw [List.mem_singleton] at hf
    exact Settled.settle hexact hf

/-- A field with a mark for its value. -/
theorem reads_wild {row : Field} (hname : parseField name = some row)
    (hwild : row.member.isWild om = true) :
    Reads p om options (name ++ '=' :: (['*'] ++ [','])) [row.member] := by
  obtain ⟨hplain, hprotocol, hoption, hwildcard⟩ := parseField_spec hname
  intro st rest hv
  have huntouched := hv.untouched hwild
  have hstar : Tokens.Plain valueDelim ['*'] :=
    ⟨by decide, fun c hc => by rw [List.mem_singleton.1 hc]; decide⟩
  refine ⟨st, ?_, hv, fun f hf => ?_⟩
  · have hassign : st.assign p name ['*'] = .ok st := by
      unfold FlowSpec.assign
      rw [FlowOptions.assign_of_not_mem _ _ hoption, hname]
      simp only [true_or, if_true, wild_of_untouched hwildcard huntouched]
    rw [List.append_assoc, List.cons_append, List.append_assoc]
    exact parseFlow_field hplain hprotocol hstar hassign
  · rw [List.mem_singleton] at hf
    obtain rfl | hf := hf
    · rwa [Settled, if_pos hwild]
    · exact hf

/-- What `print_wild` prints, or leaves out. -/
theorem reads_printWild {row : Field} {leader : List Char} {n : ℕ} (verbosity : ℤ)
    (hleader : leader = name ++ ['=']) (hname : parseField name = some row)
    (hword : IsWord value)
    (hvalue : row.member.isWild om = false →
      parseValue p value row.member.type = .ok (row.member.get om, n) ∧
        BitVec.ofNat 32 n <<< row.shift = om.wildcards &&& row.member.wildcard) :
    Reads p om options (printWild leader (row.member.isWild om) verbosity value) [row.member] := by
  rw [printWild, hleader]
  by_cases hwild : row.member.isWild om = true
  · by_cases hshort : verbosity < 2
    · rw [if_pos ⟨hwild, hshort⟩]
      apply reads_nil
      rintro f hf
      rwa [List.mem_singleton.1 hf]
    · rw [if_neg (fun h => hshort h.2), if_pos hwild, List.append_assoc, List.append_assoc]
      exact reads_wild hname hwild
  · obtain ⟨hparse, hbits⟩ := hvalue (Bool.eq_false_iff.2 hwild)
    rw [if_neg (fun h => hwild h.1), if_neg hwild, List.append_assoc, List.append_assoc]
    exact reads_value hname hword (Bool.eq_false_iff.2 hwild) hparse hbits

/-- A field that is no address has no wild bits when it is exact. -/
theorem and_wildcard_eq_zero (htype : f.type ≠ .ip) (hexact : f.isWild om = false) :
    om.wildcards &&& f.wildcard = 0 := by
  cases f
  case nwSrc => exact absurd rfl htype
  case nwDst => exact absurd rfl htype
  all_goals exact bne_eq_false_iff_eq.1 hexact

/-- A field that is no address. -/
theorem reads_number {row : Field} {leader : List Char} (verbosity : ℤ)
    (hleader : leader = name ++ ['=']) (hname : parseField name = some row)
    (hword : IsWord value) (htype : row.member.type ≠ .ip)
    (hvalue : parseValue p value row.member.type = .ok (row.member.get om, 0)) :
    Reads p om options (printWild leader (row.member.isWild om) verbosity value) [row.member] := by
  apply reads_printWild verbosity hleader hname hword
  intro hexact
  refine ⟨hvalue, ?_⟩
  rw [and_wildcard_eq_zero htype hexact]
  exact BitVec.zero_shiftLeft _

/-- `print_ip_netmask` prints as `print_wild` does. -/
theorem printIpNetmask_eq (leader : List Char) (ip wildBits : BitVec 32) (verbosity : ℤ) :
    printIpNetmask leader ip wildBits verbosity =
      printWild leader (decide (32 ≤ wildBits.toNat)) verbosity
        (addressText ip wildBits.toNat) := by
  have hzero : wildBits ≠ 0 ↔ wildBits.toNat ≠ 0 := by
    rw [ne_eq, ne_eq, ← BitVec.toNat_inj]
    rfl
  simp only [printIpNetmask, printWild, addressText, decide_eq_true_eq, hzero]
  by_cases hwild : 32 ≤ wildBits.toNat
  · rw [if_pos hwild, if_neg (Nat.not_lt.2 hwild)]
  · rw [if_neg hwild, if_pos (Nat.not_le.1 hwild)]

/-- An address with its prefix length. -/
theorem reads_address {row : Field} {leader : List Char} {ip wildBits : BitVec 32} (verbosity : ℤ)
    (hleader : leader = name ++ ['=']) (hname : parseField name = some row)
    (hwild : row.member.isWild om = decide (32 ≤ wildBits.toNat))
    (hvalue : ∀ n, strToIp p (addressText ip wildBits.toNat) = .ok (ip, n) →
      parseValue p (addressText ip wildBits.toNat) row.member.type = .ok (row.member.get om, n))
    (hbits : wildBits <<< row.shift = om.wildcards &&& row.member.wildcard) :
    Reads p om options (printIpNetmask leader ip wildBits verbosity) [row.member] := by
  rw [printIpNetmask_eq, ← hwild]
  apply reads_printWild verbosity hleader hname (isWord_addressText ip wildBits.toNat)
  intro hexact
  rw [hwild, decide_eq_false_iff_not, Nat.not_le] at hexact
  refine ⟨hvalue _ (strToIp_addressText p ip hexact), ?_⟩
  rw [BitVec.ofNat_toNat, BitVec.setWidth_eq, hbits]

/-! ### The name in front -/

/-- The name of a protocol that tells the Ethernet type. -/
theorem protocol_eq_settle {protocol : Protocol} (hexact : MatchField.dlType.isWild om = false)
    (htype : om.dlType = protocol.dlType) (hzero : protocol.nwProto = 0) :
    st.protocol protocol = st.settle om .dlType := by
  have hbits : om.wildcards &&& MatchField.dlType.wildcard = 0 :=
    and_wildcard_eq_zero (by decide) hexact
  rw [FlowSpec.protocol, if_neg (not_not.2 hzero), FlowSpec.settle, hbits, or_zero_bits]
  simp only [MatchField.set, MatchField.get, MatchField.wildcard, htype]

/-- The name of a protocol that tells the IP protocol too. -/
theorem protocol_eq_settle_settle {protocol : Protocol}
    (hexact : MatchField.dlType.isWild om = false) (htype : om.dlType = protocol.dlType)
    (hexact' : MatchField.nwProto.isWild om = false) (hproto : om.nwProto = protocol.nwProto)
    (hne : protocol.nwProto ≠ 0) :
    st.protocol protocol = (st.settle om .dlType).settle om .nwProto := by
  have hbits : om.wildcards &&& MatchField.dlType.wildcard = 0 :=
    and_wildcard_eq_zero (by decide) hexact
  have hbits' : om.wildcards &&& MatchField.nwProto.wildcard = 0 :=
    and_wildcard_eq_zero (by decide) hexact'
  rw [FlowSpec.protocol, if_pos hne, FlowSpec.settle, FlowSpec.settle, hbits, hbits',
    or_zero_bits, or_zero_bits]
  simp only [MatchField.set, MatchField.get, MatchField.wildcard, htype, hproto]

/-- The name of a protocol settles the Ethernet type. -/
theorem reads_type {protocol : Protocol} (hprotocol : parseProtocol name = some protocol)
    (hexact : MatchField.dlType.isWild om = false) (htype : om.dlType = protocol.dlType)
    (hzero : protocol.nwProto = 0) :
    Reads p om options (name ++ [',']) [.dlType] := by
  intro st rest hv
  refine ⟨st.settle om .dlType, ?_, hv.settle hexact, fun f hf => ?_⟩
  · rw [List.append_assoc, ← protocol_eq_settle hexact htype hzero]
    exact parseFlow_protocol (parseProtocol_spec hprotocol) hprotocol
  · rw [List.mem_singleton] at hf
    exact Settled.settle hexact hf

/-- It may settle the IP protocol as well. -/
theorem reads_type_proto {protocol : Protocol} (hprotocol : parseProtocol name = some protocol)
    (hexact : MatchField.dlType.isWild om = false) (htype : om.dlType = protocol.dlType)
    (hexact' : MatchField.nwProto.isWild om = false)
    (hproto : om.nwProto = protocol.nwProto) (hne : protocol.nwProto ≠ 0) :
    Reads p om options (name ++ [',']) [.dlType, .nwProto] := by
  intro st rest hv
  refine ⟨(st.settle om .dlType).settle om .nwProto, ?_, (hv.settle hexact).settle hexact',
    fun f hf => ?_⟩
  · rw [List.append_assoc,
      ← protocol_eq_settle_settle hexact htype hexact' hproto hne]
    exact parseFlow_protocol (parseProtocol_spec hprotocol) hprotocol
  · apply Settled.settle hexact'
    rw [List.mem_cons, List.mem_singleton] at hf
    obtain (rfl | rfl) | hf := hf
    · exact .inr (settled_settle st hexact)
    · exact .inl rfl
    · exact .inr (Settled.settle hexact (.inr hf))

/-- The fields that are not printed because of the name in front. -/
def skipped (skipType skipProto : Bool) : List MatchField :=
  (if skipType then [.dlType] else []) ++ if skipProto then [.nwProto] else []

/-- The name in front, if there is one. -/
theorem reads_shorthand (p : Platform) (om : OfpMatch) (options : FlowOptions) :
    ∃ text skipType skipProto, shorthand om = (text, skipType, skipProto) ∧
      Reads p om options text (skipped skipType skipProto) := by
  have htypeExact : om.wildcards &&& ofpfwDlType = 0 → MatchField.dlType.isWild om = false :=
    fun h => bne_eq_false_iff_eq.2 h
  have hprotoExact : om.wildcards &&& ofpfwNwProto = 0 → MatchField.nwProto.isWild om = false :=
    fun h => bne_eq_false_iff_eq.2 h
  have hicmpRow : parseProtocol "icmp".toList = some ⟨_, ethTypeIp, ipTypeIcmp⟩ := rfl
  have htcpRow : parseProtocol "tcp".toList = some ⟨_, ethTypeIp, ipTypeTcp⟩ := rfl
  have hudpRow : parseProtocol "udp".toList = some ⟨_, ethTypeIp, ipTypeUdp⟩ := rfl
  have hipRow : parseProtocol "ip".toList = some ⟨_, ethTypeIp, 0⟩ := rfl
  have harpRow : parseProtocol "arp".toList = some ⟨_, ethTypeArp, 0⟩ := rfl
  unfold shorthand
  split_ifs with htype hip hproto hicmp htcp hudp harp
  · exact ⟨_, _, _, rfl, reads_type_proto hicmpRow (htypeExact htype) hip (hprotoExact hproto) hicmp
      (by decide)⟩
  · exact ⟨_, _, _, rfl, reads_type_proto htcpRow (htypeExact htype) hip (hprotoExact hproto) htcp
      (by decide)⟩
  · exact ⟨_, _, _, rfl, reads_type_proto hudpRow (htypeExact htype) hip (hprotoExact hproto) hudp
      (by decide)⟩
  · exact ⟨_, _, _, rfl, reads_type hipRow (htypeExact htype) hip rfl⟩
  · exact ⟨_, _, _, rfl, reads_type hipRow (htypeExact htype) hip rfl⟩
  · exact ⟨_, _, _, rfl, reads_type harpRow (htypeExact htype) harp rfl⟩
  all_goals exact ⟨_, _, _, rfl, reads_nil fun f hf => by cases hf⟩

/-! ### The whole text -/

theorem toNat_lt {w : ℕ} (v : BitVec w) (hw : w ≤ 32) : v.toNat < 2 ^ 32 :=
  v.isLt.trans_le (Nat.pow_le_pow_right (by decide) hw)

theorem parseValue_u8 {v : BitVec 8} (h : strToU32 p value = .ok (.ofNat 32 v.toNat)) :
    parseValue p value .u8 = .ok (v, 0) := by
  have hv : (BitVec.ofNat 32 v.toNat).setWidth 8 = v := by simp
  rw [parseValue, h]
  exact congrArg (fun w => Except.ok (w, 0)) hv

theorem parseValue_u16 {v : BitVec 16} (h : strToU32 p value = .ok (.ofNat 32 v.toNat)) :
    parseValue p value .u16 = .ok (v, 0) := by
  have hv : (BitVec.ofNat 32 v.toNat).setWidth 16 = v := by simp
  rw [parseValue, h]
  exact congrArg (fun w => Except.ok (w, 0)) hv

theorem parseValue_mac (ea : BitVec 48) : parseValue p (ethAddr ea) .mac = .ok (ea, 0) := by
  rw [parseValue, strToMac_ethAddr]
  rfl

/-- The fields of the link: the port, the VLAN and the Ethernet addresses. -/
theorem reads_link (p : Platform) (om : OfpMatch) (options : FlowOptions) (verbosity : ℤ) :
    Reads p om options
      (printWild "in_port=".toList (om.wildcards &&& ofpfwInPort != 0) verbosity
          (decimal om.inPort.toNat) ++
        (printWild "dl_vlan=".toList (om.wildcards &&& ofpfwDlVlan != 0) verbosity
            (hexadecimal 4 om.dlVlan.toNat) ++
          (printWild "dl_vlan_pcp=".toList (om.wildcards &&& ofpfwDlVlanPcp != 0) verbosity
              (hexadecimal 2 om.dlVlanPcp.toNat) ++
            (printWild "dl_src=".toList (om.wildcards &&& ofpfwDlSrc != 0) verbosity
                (ethAddr om.dlSrc) ++
              printWild "dl_dst=".toList (om.wildcards &&& ofpfwDlDst != 0) verbosity
                (ethAddr om.dlDst)))))
      [.inPort, .dlVlan, .dlVlanPcp, .dlSrc, .dlDst] := by
  -- the names of the fields, as they are looked up
  have hinPort : parseField "in_port".toList = some ⟨_, ofpfwInPort, .inPort, 0⟩ := rfl
  have hvlan : parseField "dl_vlan".toList = some ⟨_, ofpfwDlVlan, .dlVlan, 0⟩ := rfl
  have hpcp : parseField "dl_vlan_pcp".toList = some ⟨_, ofpfwDlVlanPcp, .dlVlanPcp, 0⟩ := rfl
  have hsrc : parseField "dl_src".toList = some ⟨_, ofpfwDlSrc, .dlSrc, 0⟩ := rfl
  have hdst : parseField "dl_dst".toList = some ⟨_, ofpfwDlDst, .dlDst, 0⟩ := rfl
  apply Reads.cons
  · exact reads_number verbosity rfl hinPort (isWord_decimal _) (by decide)
      (parseValue_u16 (strToU32_decimal p (toNat_lt _ (by decide))))
  apply Reads.cons
  · exact reads_number verbosity rfl hvlan (isWord_hexadecimal _ _) (by decide)
      (parseValue_u16 (strToU32_hexadecimal p 4 (toNat_lt _ (by decide))))
  apply Reads.cons
  · exact reads_number verbosity rfl hpcp (isWord_hexadecimal _ _) (by decide)
      (parseValue_u8 (strToU32_hexadecimal p 2 (toNat_lt _ (by decide))))
  apply Reads.cons
  · exact reads_number verbosity rfl hsrc (isWord_ethAddr _) (by decide) (parseValue_mac _)
  · exact reads_number verbosity rfl hdst (isWord_ethAddr _) (by decide) (parseValue_mac _)

/-- The Ethernet type, unless the name in front has told it. -/
theorem reads_dlType (p : Platform) (om : OfpMatch) (options : FlowOptions) (verbosity : ℤ)
    (skipType : Bool) :
    Reads p om options
      (if skipType then []
      else printWild "dl_type=".toList (om.wildcards &&& ofpfwDlType != 0) verbosity
        (hexadecimal 4 om.dlType.toNat))
      (if skipType then [] else [.dlType]) := by
  have htype : parseField "dl_type".toList = some ⟨_, ofpfwDlType, .dlType, 0⟩ := rfl
  split
  · exact reads_nil fun f hf => by cases hf
  · exact reads_number verbosity rfl htype (isWord_hexadecimal _ _) (by decide)
      (parseValue_u16 (strToU32_hexadecimal p 4 (toNat_lt _ (by decide))))

/-- The IP protocol, unless the name in front has told it. -/
theorem reads_nwProto (p : Platform) (om : OfpMatch) (options : FlowOptions) (verbosity : ℤ)
    (skipProto : Bool) :
    Reads p om options
      (if skipProto then []
      else printWild "nw_proto=".toList (om.wildcards &&& ofpfwNwProto != 0) verbosity
        (decimal om.nwProto.toNat))
      (if skipProto then [] else [.nwProto]) := by
  have hproto : parseField "nw_proto".toList = some ⟨_, ofpfwNwProto, .nwProto, 0⟩ := rfl
  split
  · exact reads_nil fun f hf => by cases hf
  · exact reads_number verbosity rfl hproto (isWord_decimal _) (by decide)
      (parseValue_u8 (strToU32_decimal p (toNat_lt _ (by decide))))

/-- The Internet addresses and the type of service. -/
theorem reads_network (p : Platform) (om : OfpMatch) (options : FlowOptions) (verbosity : ℤ) :
    Reads p om options
      (printIpNetmask "nw_src=".toList om.nwSrc (nwSrcWild om) verbosity ++
        (printIpNetmask "nw_dst=".toList om.nwDst (nwDstWild om) verbosity ++
          printWild "nw_tos=".toList (om.wildcards &&& ofpfwNwTos != 0) verbosity
            (hexadecimal 2 om.nwTos.toNat)))
      [.nwSrc, .nwDst, .nwTos] := by
  have hsrc : parseField "nw_src".toList = some ⟨_, ofpfwNwSrcMask, .nwSrc, ofpfwNwSrcShift⟩ := rfl
  have hdst : parseField "nw_dst".toList = some ⟨_, ofpfwNwDstMask, .nwDst, ofpfwNwDstShift⟩ := rfl
  have htos : parseField "nw_tos".toList = some ⟨_, ofpfwNwTos, .nwTos, 0⟩ := rfl
  apply Reads.cons
  · exact reads_address verbosity rfl hsrc rfl (fun n hn => hn)
      (and_shiftLeft_ushiftRight (by decide))
  apply Reads.cons
  · exact reads_address verbosity rfl hdst rfl (fun n hn => hn)
      (and_shiftLeft_ushiftRight (by decide))
  · exact reads_number verbosity rfl htos (isWord_hexadecimal _ _) (by decide)
      (parseValue_u8 (strToU32_hexadecimal p 2 (toNat_lt _ (by decide))))

/-- The ports, under the names that they have for ICMP or for the other protocols. -/
theorem reads_transport (p : Platform) (om : OfpMatch) (options : FlowOptions) (verbosity : ℤ) :
    Reads p om options
      (if om.nwProto = ipTypeIcmp then
        printWild "icmp_type=".toList (om.wildcards &&& ofpfwTpSrc != 0) verbosity
            (decimal om.tpSrc.toNat) ++
          printWild "icmp_code=".toList (om.wildcards &&& ofpfwTpDst != 0) verbosity
            (decimal om.tpDst.toNat)
      else
        printWild "tp_src=".toList (om.wildcards &&& ofpfwTpSrc != 0) verbosity
            (decimal om.tpSrc.toNat) ++
          printWild "tp_dst=".toList (om.wildcards &&& ofpfwTpDst != 0) verbosity
            (decimal om.tpDst.toNat))
      [.tpSrc, .tpDst] := by
  have htype : parseField "icmp_type".toList = some ⟨_, ofpfwTpSrc, .tpSrc, 0⟩ := rfl
  have hcode : parseField "icmp_code".toList = some ⟨_, ofpfwTpDst, .tpDst, 0⟩ := rfl
  have hsrc : parseField "tp_src".toList = some ⟨_, ofpfwTpSrc, .tpSrc, 0⟩ := rfl
  have hdst : parseField "tp_dst".toList = some ⟨_, ofpfwTpDst, .tpDst, 0⟩ := rfl
  have hvalue : ∀ v : BitVec 16, parseValue p (decimal v.toNat) .u16 = .ok (v, 0) := fun v =>
    parseValue_u16 (strToU32_decimal p (toNat_lt v (by decide)))
  split
  · apply Reads.cons
    · exact reads_number verbosity rfl htype (isWord_decimal _) (by decide) (hvalue _)
    · exact reads_number verbosity rfl hcode (isWord_decimal _) (by decide) (hvalue _)
  · apply Reads.cons
    · exact reads_number verbosity rfl hsrc (isWord_decimal _) (by decide) (hvalue _)
    · exact reads_number verbosity rfl hdst (isWord_decimal _) (by decide) (hvalue _)

/-- The fields in the order in which the text settles them. -/
def settledFields (skipType skipProto : Bool) : List MatchField :=
  List.flatten [skipped skipType skipProto, [.inPort, .dlVlan, .dlVlanPcp, .dlSrc, .dlDst],
    if skipType then [] else [.dlType], [.nwSrc, .nwDst, .nwTos],
    if skipProto then [] else [.nwProto], [.tpSrc, .tpDst]]

/-- None is missing: the two that may not be printed are settled in front. -/
theorem mem_settledFields (skipType skipProto : Bool) (f : MatchField) :
    f ∈ settledFields skipType skipProto := by
  cases f <;> cases skipType <;> cases skipProto <;> decide

/-- The text of a match settles all fields. -/
theorem reads_ofpMatchToString (p : Platform) (om : OfpMatch) (options : FlowOptions)
    (verbosity : ℤ) :
    ∃ fs, Reads p om options (ofpMatchToString om verbosity) fs ∧ ∀ f, f ∈ fs := by
  obtain ⟨text, skipType, skipProto, hshort, hfront⟩ := reads_shorthand p om options
  have hreads : Reads p om options (ofpMatchToString om verbosity)
      (settledFields skipType skipProto) := by
    have hparts := hfront.append ((reads_link p om options verbosity).append
      ((reads_dlType p om options verbosity skipType).append
        ((reads_network p om options verbosity).append
          ((reads_nwProto p om options verbosity skipProto).append
            (reads_transport p om options verbosity)))))
    unfold ofpMatchToString settledFields
    rw [hshort]
    simp only [List.flatten_cons, List.flatten_nil, List.append_assoc, List.append_nil] at hparts ⊢
    exact hparts
  exact ⟨_, hreads, mem_settledFields skipType skipProto⟩

/-! ### The match that is read -/

/-- A field that is no address has a single bit. -/
theorem exists_wildcard_eq_twoPow (htype : f.type ≠ .ip) :
    ∃ i, f.wildcard = BitVec.twoPow 32 i := by
  cases f
  case inPort => exact ⟨0, by decide⟩
  case dlVlan => exact ⟨1, by decide⟩
  case dlSrc => exact ⟨2, by decide⟩
  case dlDst => exact ⟨3, by decide⟩
  case dlType => exact ⟨4, by decide⟩
  case nwProto => exact ⟨5, by decide⟩
  case tpSrc => exact ⟨6, by decide⟩
  case tpDst => exact ⟨7, by decide⟩
  case dlVlanPcp => exact ⟨20, by decide⟩
  case nwTos => exact ⟨21, by decide⟩
  all_goals exact absurd rfl htype

/-- A field that is no address and is wild has its bit. -/
theorem and_wildcard_of_isWild (htype : f.type ≠ .ip) (hwild : f.isWild om = true) :
    om.wildcards &&& f.wildcard = f.wildcard := by
  obtain ⟨i, hi⟩ := exists_wildcard_eq_twoPow htype
  have hne : om.wildcards &&& f.wildcard ≠ 0 := by
    cases f
    case nwSrc => exact absurd rfl htype
    case nwDst => exact absurd rfl htype
    all_goals exact bne_iff_ne.1 hwild
  rw [hi] at hne ⊢
  exact and_twoPow_of_ne_zero hne

/-- Settled fields that are no addresses have the same bits. -/
theorem Settled.and_wildcard (h : Settled om st f) (htype : f.type ≠ .ip) :
    st.wildcards &&& f.wildcard = om.wildcards &&& f.wildcard := by
  by_cases hwild : f.isWild om = true
  · rw [Settled, if_pos hwild] at h
    rw [h.1, and_wildcard_of_isWild htype hwild]
  · rw [Settled, if_neg hwild] at h
    exact h.1

/-- A settled address has as many wild bits, or all of them. -/
theorem Settled.min_wild {shift : ℕ} (h : Settled om st f)
    (hwild : f.isWild om = decide (32 ≤ ((om.wildcards &&& f.wildcard) >>> shift).toNat))
    (hmask : 32 ≤ (f.wildcard >>> shift).toNat) :
    min 32 ((st.wildcards &&& f.wildcard) >>> shift).toNat =
      min 32 ((om.wildcards &&& f.wildcard) >>> shift).toNat := by
  by_cases hall : f.isWild om = true
  · rw [Settled, if_pos hall] at h
    rw [hwild, decide_eq_true_eq] at hall
    rw [h.1, min_eq_left hmask, min_eq_left hall]
  · rw [Settled, if_neg hall] at h
    rw [h.1]

/-- A match all of whose fields are settled is the same. -/
theorem same_of_settled (hnormal : om.wildcards &&& ~~~ofpfwAll = 0) (hv : Valid om options st)
    (h : ∀ f, Settled om st f) : Same om { st.om with wildcards := st.wildcards } := by
  refine ⟨?_, ?_, ?_, fun f hexact => ?_⟩
  · -- the other wildcards are single bits, and the bits behind all of them
    have hmask : ~~~nwMasks = [MatchField.inPort, .dlVlan, .dlVlanPcp, .dlSrc, .dlDst, .dlType,
        .nwTos, .nwProto, .tpSrc, .tpDst].foldr (fun f m => f.wildcard ||| m) (~~~ofpfwAll) := by
      decide
    rw [hmask]
    apply and_foldr_congr
    · exact hv.wildcards_and.trans hnormal.symm
    · intro f hf
      have htypes : ∀ f ∈ [MatchField.inPort, .dlVlan, .dlVlanPcp, .dlSrc, .dlDst, .dlType,
          .nwTos, .nwProto, .tpSrc, .tpDst], f.type ≠ .ip := by
        decide
      exact (h f).and_wildcard (htypes f hf)
  · exact (h .nwSrc).min_wild rfl (by decide)
  · exact (h .nwDst).min_wild rfl (by decide)
  · have hf := h f
    rw [Settled, if_neg (by simp [hexact])] at hf
    rw [← hf.2]
    cases f <;> rfl

/-- What is there before anything is read. -/
theorem valid_init (om : OfpMatch) (options : FlowOptions) :
    Valid om options ⟨ofpfwAll, OfpMatch.zero, options⟩ := by
  have hnone : ofpfwAll &&& ~~~ofpfwAll = 0 := by decide
  refine ⟨rfl, hnone, fun f => .inl ⟨f.all_and_wildcard, ?_⟩⟩
  cases f <;> rfl

/-- The text of a match with nothing but the known wildcards is read as the same match, and the
other values that are asked for have their defaults. -/
theorem strToFlow_ofpMatchToString (p : Platform) (asked : FlowOptions) (om : OfpMatch)
    (verbosity : ℤ) (hnormal : om.wildcards &&& ~~~ofpfwAll = 0) :
    ∃ om', strToFlow p asked (ofpMatchToString om verbosity) = .ok (om', asked.defaults) ∧
      Same om om' := by
  obtain ⟨fs, hreads, hall⟩ := reads_ofpMatchToString p om asked.defaults verbosity
  obtain ⟨st, hparse, hv, hsettled⟩ := hreads _ [] (valid_init om asked.defaults)
  refine ⟨{ st.om with wildcards := st.wildcards }, ?_,
    same_of_settled hnormal hv fun f => hsettled f (.inl (hall f))⟩
  rw [List.append_nil, parseFlow_nil] at hparse
  rw [strToFlow, hparse, Except.map, hv.options_eq]

/-- A TCP flow from a network, in both verbosities. -/
theorem strToFlow_ofpMatchToString_tcp :
    let om : OfpMatch :=
      { OfpMatch.zero with
        wildcards := ofpfwDlVlan ||| 8 <<< ofpfwNwSrcShift ||| 40 <<< ofpfwNwDstShift
        dlType := ethTypeIp
        nwProto := ipTypeTcp
        nwSrc := 0x0a010200
        tpDst := 80 }
    let p : Platform := ⟨32, Nat.le_refl 32, fun _ => none⟩
    let asked : FlowOptions := ⟨none, none, none, none, none, none⟩
    om.wildcards &&& ~~~ofpfwAll = 0 ∧
      (∃ om', strToFlow p asked (ofpMatchToString om 0) = .ok (om', asked.defaults) ∧
        Same om om') ∧
      ∃ om', strToFlow p asked (ofpMatchToString om 2) = .ok (om', asked.defaults) ∧
        Same om om' :=
  ⟨by decide, strToFlow_ofpMatchToString _ _ _ 0 (by decide),
    strToFlow_ofpMatchToString _ _ _ 2 (by decide)⟩

end OfAgent.Dpctl
