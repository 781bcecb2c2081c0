import OfAgent.Lib.CommandLine
import OfAgent.Lib.Decimal
import OfAgent.Lib.Separated
import OfAgent.Packet.Buffer
import OfAgent.Agent.Client

/-!
# The command lines for the client

`zyxel_configure_service` and `zyxel_unconfigure_service` print a command into 100 bytes, with two
calls of `inet_ntoa` among the arguments, and `zyxel_client.py` reads its options from it.

* `CallOrder.buffer`: the one buffer of `inet_ntoa`, behind both calls.
* `DeviceCommand.commandLine`: the command that is passed to `system`; `clientOptions`: what the
  client reads of it.
* `clientOptions_commandLine`: what arrives; `delivered_iff`: when it is what the function was
  given.
-/

namespace OfAgent

open CommandLine

/-! ### The device functions -/

/-- The text that `inet_ntoa` writes for `htonl` of an address. -/
def dottedQuad (ipAddress : BitVec 32) : Word :=
  ['.'].intercalate ((Memory.bytes32 ipAddress).map fun b => Nat.toDigits 10 b.toNat)

/-- Which of the two calls of `convert_ip_to_string` is made first. C leaves it open. -/
inductive CallOrder
  | wanAddressFirst
  | wanMaskFirst

/-- The arguments of the calls, in order. -/
def CallOrder.calls (order : CallOrder) (wanAddress wanMask : BitVec 32) : List (BitVec 32) :=
  match order with
  | wanAddressFirst => [wanAddress, wanMask]
  | wanMaskFirst => [wanMask, wanAddress]

/-- The buffer to which both results of `convert_ip_to_string` point. Each call overwrites it. -/
def CallOrder.buffer (order : CallOrder) (wanAddress wanMask : BitVec 32) : Word :=
  (order.calls wanAddress wanMask).foldl (fun _ ipAddress => dottedQuad ipAddress) []

/-- The path of the client. -/
def clientPath : Word := "./openflow/udatapath/zyxel_client.py".toList

/-- The format of the commands, with the name of the command and the texts of its arguments. -/
def commandText (name wanAddress wanMask vlanTag vlanPcp hardwareIp : Word) : List Char :=
  clientPath ++ ' ' :: name ++ " -i ".toList ++ wanAddress ++ " -m ".toList ++ wanMask ++
    " -v ".toList ++ vlanTag ++ " -p ".toList ++ vlanPcp ++ " -s ".toList ++ hardwareIp

/-- `sizeof command`. -/
def sizeofCommand : ℕ := 100

/-- `snprintf` into `command`: the last byte is for the end of the text. -/
def snprintfCommand (text : List Char) : List Char := text.take (sizeofCommand - 1)

/-- `zyxel_configure_service`: the command. -/
def zyxelConfigureService (order : CallOrder) (hardwareIp : Word) (wanAddress wanMask : BitVec 32)
    (vlanTag vlanPcp : BitVec 16) : List Char :=
  let buffer := order.buffer wanAddress wanMask
  snprintfCommand (commandText "setwan".toList buffer buffer (decimal vlanTag) (decimal vlanPcp)
    hardwareIp)

/-- `zyxel_unconfigure_service`: the command. -/
def zyxelUnconfigureService (order : CallOrder) (hardwareIp : Word)
    (wanAddress wanMask : BitVec 32) (vlanTag vlanPcp : BitVec 16) : List Char :=
  let buffer := order.buffer wanAddress wanMask
  snprintfCommand (commandText "delwan".toList buffer buffer (decimal vlanTag) (decimal vlanPcp)
    hardwareIp)

namespace DeviceCommand

/-- The command line of a command. -/
def commandLine (order : CallOrder) (hardwareIp : Word) : DeviceCommand → List Char
  | setwan wanAddress wanMask vlanTag vlanPcp =>
      zyxelConfigureService order hardwareIp wanAddress wanMask vlanTag vlanPcp
  | delwan wanAddress wanMask vlanTag vlanPcp =>
      zyxelUnconfigureService order hardwareIp wanAddress wanMask vlanTag vlanPcp

/-- The command of the client. -/
def name : DeviceCommand → Word
  | setwan .. => "setwan".toList
  | delwan .. => "delwan".toList

/-- The address of the WAN interface. -/
def wanAddress : DeviceCommand → BitVec 32
  | setwan wanAddress .. | delwan wanAddress .. => wanAddress

/-- Its mask. -/
def wanMask : DeviceCommand → BitVec 32
  | setwan _ wanMask .. | delwan _ wanMask .. => wanMask

/-- Its VLAN. -/
def vlanTag : DeviceCommand → BitVec 16
  | setwan _ _ vlanTag _ | delwan _ _ vlanTag _ => vlanTag

/-- Its priority. -/
def vlanPcp : DeviceCommand → BitVec 16
  | setwan _ _ _ vlanPcp | delwan _ _ _ vlanPcp => vlanPcp

end DeviceCommand

/-! ### The options of the client -/

/-- The destinations of the options. -/
inductive ClientOption
  | wanIP
  | wanNetMask
  | vlan
  | pcp
  | server
  deriving DecidableEq

/-- The letter of an option. -/
def ClientOption.letter : ClientOption → Char
  | wanIP => 'i'
  | wanNetMask => 'm'
  | vlan => 'v'
  | pcp => 'p'
  | server => 's'

/-- A value for each option. -/
def clientValues (wanIP wanNetMask vlan pcp server : Word) : ClientOption → Word
  | .wanIP => wanIP
  | .wanNetMask => wanNetMask
  | .vlan => vlan
  | .pcp => pcp
  | .server => server

/-- The options of `zyxel_client.py`. -/
def clientParser : Parser ClientOption where
  shortOpts := [('h', .exit), ('i', .store .wanIP), ('m', .store .wanNetMask), ('v', .store .vlan),
    ('p', .store .pcp), ('s', .store .server)]
  longOpts := [("--version".toList, .exit), ("--help".toList, .exit),
    ("--wan_ip".toList, .store .wanIP), ("--wan_netmask".toList, .store .wanNetMask),
    ("--vlan".toList, .store .vlan), ("--pcp".toList, .store .pcp),
    ("--server".toList, .store .server)]

/-- The defaults of the options. -/
def clientDefaults : ClientOption → Word :=
  clientValues "192.168.1.1".toList "255.255.255.0".toList "200".toList "0".toList
    "10.0.3.2".toList

/-- `parser.parse_args` in a client that has been started with the command. -/
def clientOptions (command : List Char) : Option ((ClientOption → Word) × List Word) :=
  clientParser.parseArgs clientDefaults ((words command).drop 1)

namespace DeviceCommand

variable (cmd : DeviceCommand)

/-- The values that a command is meant to have. -/
def values (hardwareIp : Word) : ClientOption → Word :=
  clientValues (dottedQuad cmd.wanAddress) (dottedQuad cmd.wanMask) (decimal cmd.vlanTag)
    (decimal cmd.vlanPcp) hardwareIp

/-- The client reads these values. -/
def Delivered (order : CallOrder) (hardwareIp : Word) : Prop :=
  ∃ args, clientOptions (cmd.commandLine order hardwareIp) = some (cmd.values hardwareIp, args)

/-- The VLAN and its priority are such numbers. -/
def InRange : Prop := cmd.vlanTag.toNat ≤ 4095 ∧ cmd.vlanPcp.toNat ≤ 7

instance : Decidable cmd.InRange := inferInstanceAs (Decidable (_ ∧ _))

end DeviceCommand

/-! ### Dotted quads -/

/-- A text of four groups of one to three digits, with dots between them. -/
def IsDottedQuad (text : Word) : Prop :=
  ∃ groups : List Word, groups.length = 4 ∧
    (∀ g ∈ groups, g ≠ [] ∧ g.length ≤ 3 ∧ ∀ c ∈ g, c.isDigit = true) ∧
      text = ['.'].intercalate groups

theorem byteDigits_spec (b : Byte) :
    Nat.toDigits 10 b.toNat ≠ [] ∧ (Nat.toDigits 10 b.toNat).length ≤ 3 ∧
      ∀ c ∈ Nat.toDigits 10 b.toNat, c.isDigit = true := by
  refine ⟨Nat.toDigits_ne_nil, ?_, fun c hc => ?_⟩
  · exact (Nat.length_toDigits_le_iff (by decide) (by decide)).2 (b.isLt.trans (by decide))
  · exact Nat.isDigit_of_mem_toDigits (by decide) (by decide) hc

theorem isDottedQuad_dottedQuad (ipAddress : BitVec 32) : IsDottedQuad (dottedQuad ipAddress) := by
  refine ⟨_, ?_, ?_, rfl⟩
  · rfl
  · intro g hg
    obtain ⟨b, -, rfl⟩ := List.mem_map.1 hg
    exact byteDigits_spec b

/-- The text determines the address. -/
theorem dottedQuad_injective {a b : BitVec 32} (h : dottedQuad a = dottedQuad b) : a = b := by
  have hgroups : ∀ x : BitVec 32, (dottedQuad x).splitOn '.' =
      (Memory.bytes32 x).map fun b => Nat.toDigits 10 b.toNat := by
    intro x
    refine List.splitOn_intercalate '.' (fun g hg hdot => ?_) (List.cons_ne_nil _ _)
    obtain ⟨b, -, rfl⟩ := List.mem_map.1 hg
    exact absurd ((byteDigits_spec b).2.2 _ hdot) (by decide)
  have hdigits : Function.Injective fun b : Byte => Nat.toDigits 10 b.toNat := by
    intro b b' hb
    have hnat := congrArg (Nat.ofDigitChars 10 · 0) hb
    simp only [Nat.ofDigitChars_ten_toDigits] at hnat
    exact BitVec.eq_of_toNat_eq hnat
  have hmap := congrArg (List.splitOn '.') h
  rw [hgroups, hgroups] at hmap
  have hbytes := hdigits.list_map hmap
  rw [← Memory.be32_bytes32 a, hbytes, Memory.be32_bytes32]

namespace IsDottedQuad

variable {text : Word}

/-- How long a dotted quad is. -/
theorem length_bounds (h : IsDottedQuad text) : 7 ≤ text.length ∧ text.length ≤ 15 := by
  obtain ⟨groups, hlen, hgroups, rfl⟩ := h
  obtain ⟨g₁, g₂, g₃, g₄, rfl⟩ := List.length_eq_four.1 hlen
  have hpos : ∀ g ∈ [g₁, g₂, g₃, g₄], 1 ≤ g.length ∧ g.length ≤ 3 := fun g hg =>
    ⟨List.length_pos_of_ne_nil (hgroups g hg).1, (hgroups g hg).2.1⟩
  simp only [List.forall_mem_cons] at hpos
  simp only [List.intercalate_cons_cons, List.intercalate_singleton, List.length_append,
    List.length_singleton]
  omega

theorem of_mem (h : IsDottedQuad text) {c : Char} (hc : c ∈ text) : c = '.' ∨ c.isDigit = true := by
  obtain ⟨groups, -, hgroups, rfl⟩ := h
  obtain hdot | ⟨g, hg, hc⟩ := Separated.mem_intercalate hc
  · exact .inl hdot
  · exact .inr ((hgroups g hg).2.2 c hc)

theorem not_mem_blank (h : IsDottedQuad text) : ' ' ∉ text := fun hmem =>
  (h.of_mem hmem).elim (by decide) (by decide)

end IsDottedQuad

/-! ### What arrives -/

section Text

variable {name wanAddress wanMask vlanTag vlanPcp hardwareIp : Word}

/-- The command has its parts with blanks between them. -/
theorem commandText_eq_intercalate :
    commandText name wanAddress wanMask vlanTag vlanPcp hardwareIp =
      [' '].intercalate [clientPath, name, ['-', 'i'], wanAddress, ['-', 'm'], wanMask,
        ['-', 'v'], vlanTag, ['-', 'p'], vlanPcp, ['-', 's'], hardwareIp] := by
  simp only [List.intercalate_cons_cons, List.intercalate_singleton, commandText,
    List.append_assoc]
  rfl

/-- A part of a command: the shell sees one word. -/
def IsPart (part : Word) : Prop := part ≠ [] ∧ ' ' ∉ part

/-- The client reads the parts of a command. -/
theorem clientOptions_commandText (hname : IsPart name) (hdash : name.head? ≠ some '-')
    (hip : IsPart wanAddress) (hmask : IsPart wanMask) (htag : IsPart vlanTag)
    (hpcp : IsPart vlanPcp) (hserver : IsPart hardwareIp) :
    clientOptions (commandText name wanAddress wanMask vlanTag vlanPcp hardwareIp) =
      some (clientValues wanAddress wanMask vlanTag vlanPcp hardwareIp, [name]) := by
  have hpath : IsPart clientPath := by
    unfold IsPart
    decide
  have hflag : ∀ o : ClientOption, IsPart ['-', o.letter] := by
    intro o
    cases o <;> (unfold IsPart; decide)
  have hwords : words (commandText name wanAddress wanMask vlanTag vlanPcp hardwareIp) =
      [clientPath, name, ['-', 'i'], wanAddress, ['-', 'm'], wanMask, ['-', 'v'], vlanTag,
        ['-', 'p'], vlanPcp, ['-', 's'], hardwareIp] := by
    rw [commandText_eq_intercalate]
    refine words_intercalate (List.cons_ne_nil _ _) ?_
    simp only [List.forall_mem_cons]
    exact ⟨hpath, hname, hflag .wanIP, hip, hflag .wanNetMask, hmask, hflag .vlan, htag, hflag .pcp,
      hpcp, hflag .server, hserver, fun _ h => absurd h List.not_mem_nil⟩
  -- the options, in the order of the command
  let opts : List (ClientOption × Word) := [(.wanIP, wanAddress), (.wanNetMask, wanMask),
    (.vlan, vlanTag), (.pcp, vlanPcp), (.server, hardwareIp)]
  have hopts : clientParser.parseArgs clientDefaults
      (opts.flatMap fun o => [['-', o.1.letter], o.2]) =
        some (clientValues wanAddress wanMask vlanTag vlanPcp hardwareIp, []) := by
    rw [Parser.parseArgs_flags (fun key => by cases key <;> decide)
      (fun key => by cases key <;> rfl)]
    refine congrArg (fun values => some (values, [])) (funext fun o => ?_)
    cases o <;> rfl
  rw [clientOptions, hwords]
  change clientParser.parseArgs clientDefaults
    (name :: opts.flatMap fun o => [['-', o.1.letter], o.2]) = _
  rw [Parser.parseArgs_argument hdash, hopts]
  rfl

/-- The room in the buffer that is left for the address of the device. -/
theorem snprintfCommand_commandText (hname : name.length = 6)
    (hroom : wanAddress.length + wanMask.length + vlanTag.length + vlanPcp.length ≤ 36) :
    snprintfCommand (commandText name wanAddress wanMask vlanTag vlanPcp hardwareIp) =
      commandText name wanAddress wanMask vlanTag vlanPcp (hardwareIp.take
        (36 - (wanAddress.length + wanMask.length + vlanTag.length + vlanPcp.length))) := by
  have hfront : (commandText name wanAddress wanMask vlanTag vlanPcp []).length =
      63 + (wanAddress.length + wanMask.length + vlanTag.length + vlanPcp.length) := by
    have hpath : clientPath.length = 36 := rfl
    simp only [commandText, List.length_append, List.length_cons, List.length_nil, hname, hpath]
    have hsep : " -i ".toList.length = 4 ∧ " -m ".toList.length = 4 ∧ " -v ".toList.length = 4 ∧
        " -p ".toList.length = 4 ∧ " -s ".toList.length = 4 := ⟨rfl, rfl, rfl, rfl, rfl⟩
    omega
  have hsplit : ∀ server, commandText name wanAddress wanMask vlanTag vlanPcp server =
      commandText name wanAddress wanMask vlanTag vlanPcp [] ++ server := by
    intro server
    simp only [commandText, List.append_nil]
  rw [snprintfCommand, hsplit, List.take_append, hsplit (hardwareIp.take _)]
  refine congr (congrArg _ (List.take_of_length_le ?_)) (congrArg (List.take · _) ?_)
  · rw [hfront, sizeofCommand]
    omega
  · rw [hfront, sizeofCommand]
    omega

end Text

/-- The buffer behind the calls has one of the two addresses in it. -/
theorem CallOrder.buffer_eq (order : CallOrder) (wanAddress wanMask : BitVec 32) :
    order.buffer wanAddress wanMask = dottedQuad wanAddress ∨
      order.buffer wanAddress wanMask = dottedQuad wanMask := by
  cases order with
  | wanAddressFirst => exact .inr rfl
  | wanMaskFirst => exact .inl rfl

theorem isPart_decimal (v : BitVec 16) : IsPart (decimal v) :=
  ⟨Decimal.ofInt_ne_nil v.toInt, notMem_decimal v (by decide) (by decide)⟩

/-- What is left of a dotted quad is one part of a command, unless nothing is. -/
theorem IsDottedQuad.isPart_take {text : Word} (h : IsDottedQuad text) {n : ℕ} (hn : 0 < n) :
    IsPart (text.take n) := by
  refine ⟨fun hnil => ?_, fun hmem => h.not_mem_blank (List.mem_of_mem_take hmem)⟩
  have hlen := congrArg List.length hnil
  have hbounds := h.length_bounds
  rw [List.length_take, List.length_nil] at hlen
  omega

theorem IsDottedQuad.isPart {text : Word} (h : IsDottedQuad text) : IsPart text := by
  have hpart := h.isPart_take (n := text.length) (Nat.lt_of_lt_of_le (by decide) h.length_bounds.1)
  rwa [List.take_length] at hpart

/-- A number from 0 to 4095 has as many digits as it should. -/
theorem length_decimal_le {v : BitVec 16} {k : ℕ} (hk : 0 < k) (hv : v.toNat < 10 ^ k)
    (hle : v.toNat ≤ 4095) : (decimal v).length ≤ k := by
  have hint : v.toInt = v.toNat := by
    rw [BitVec.toInt_eq_toNat_cond, if_pos (by omega)]
  rw [decimal, if_neg (by omega), hint, Int.natAbs_natCast]
  exact (Nat.length_toDigits_le_iff (by decide) hk).2 hv

namespace DeviceCommand

variable {cmd : DeviceCommand} {order : CallOrder} {hardwareIp : Word}

/-- The numbers of a command have at most four digits and one digit. -/
theorem InRange.length_decimal (h : cmd.InRange) :
    (decimal cmd.vlanTag).length ≤ 4 ∧ (decimal cmd.vlanPcp).length = 1 := by
  obtain ⟨htag, hpcp⟩ := h
  refine ⟨length_decimal_le (by decide) (by omega) htag, le_antisymm ?_ ?_⟩
  · exact length_decimal_le (by decide) (by omega) (by omega)
  · exact List.length_pos_of_ne_nil (isPart_decimal _).1

/-- The text in the buffer behind the calls. -/
def buffer (cmd : DeviceCommand) (order : CallOrder) : Word :=
  order.buffer cmd.wanAddress cmd.wanMask

theorem isDottedQuad_buffer (cmd : DeviceCommand) (order : CallOrder) :
    IsDottedQuad (cmd.buffer order) := by
  unfold buffer
  obtain h | h := order.buffer_eq cmd.wanAddress cmd.wanMask
  · rw [h]
    exact isDottedQuad_dottedQuad _
  · rw [h]
    exact isDottedQuad_dottedQuad _

/-- Both functions print one command, but for its name. -/
theorem commandLine_eq (cmd : DeviceCommand) (order : CallOrder) (hardwareIp : Word) :
    cmd.commandLine order hardwareIp = snprintfCommand (commandText cmd.name (cmd.buffer order)
      (cmd.buffer order) (decimal cmd.vlanTag) (decimal cmd.vlanPcp) hardwareIp) := by
  cases cmd with
  | setwan => rfl
  | delwan => rfl

/-- The names of both commands are words of six letters. -/
theorem name_spec (cmd : DeviceCommand) :
    cmd.name.length = 6 ∧ IsPart cmd.name ∧ cmd.name.head? ≠ some '-' := by
  have hname : cmd.name = "setwan".toList ∨ cmd.name = "delwan".toList := by
    cases cmd with
    | setwan => exact .inl rfl
    | delwan => exact .inr rfl
  unfold IsPart
  obtain hname | hname := hname
  · rw [hname]
    decide
  · rw [hname]
    decide

/-- The client reads the same address for the interface and for its mask, and as much of the
address of the device as the buffer has room for. -/
theorem clientOptions_commandLine (order : CallOrder) (hcmd : cmd.InRange)
    (hserver : IsDottedQuad hardwareIp) :
    clientOptions (cmd.commandLine order hardwareIp) =
      some (clientValues (cmd.buffer order) (cmd.buffer order) (decimal cmd.vlanTag)
        (decimal cmd.vlanPcp) (hardwareIp.take
          (35 - (2 * (cmd.buffer order).length + (decimal cmd.vlanTag).length))), [cmd.name]) := by
  have hbuffer := cmd.isDottedQuad_buffer order
  have hlen := hbuffer.length_bounds
  obtain ⟨htag, hpcp⟩ := hcmd.length_decimal
  have hname := cmd.name_spec
  have hroom : 36 - ((cmd.buffer order).length + (cmd.buffer order).length +
      (decimal cmd.vlanTag).length + (decimal cmd.vlanPcp).length) =
        35 - (2 * (cmd.buffer order).length + (decimal cmd.vlanTag).length) := by
    omega
  rw [commandLine_eq, snprintfCommand_commandText hname.1 (by omega), hroom]
  exact clientOptions_commandText hname.2.1 hname.2.2 hbuffer.isPart hbuffer.isPart
    (isPart_decimal _) (isPart_decimal _) (hserver.isPart_take (by omega))

/-- The client reads what `zyxel_configure_service` or `zyxel_unconfigure_service` was given exactly
if the address of the interface is also its mask, and the texts of all arguments together have
room in the buffer. -/
theorem delivered_iff (order : CallOrder) (hcmd : cmd.InRange) (hserver : IsDottedQuad hardwareIp) :
    cmd.Delivered order hardwareIp ↔ cmd.wanAddress = cmd.wanMask ∧
      2 * (dottedQuad cmd.wanAddress).length + (decimal cmd.vlanTag).length + hardwareIp.length ≤
        35 := by
  have hoptions := clientOptions_commandLine order hcmd hserver
  constructor
  · rintro ⟨args, hargs⟩
    rw [hoptions] at hargs
    have hvalues := congrFun (congrArg Prod.fst (Option.some.inj hargs))
    have hip : cmd.buffer order = dottedQuad cmd.wanAddress := hvalues .wanIP
    have hmask : cmd.buffer order = dottedQuad cmd.wanMask := hvalues .wanNetMask
    have htake : hardwareIp.take _ = hardwareIp := hvalues .server
    refine ⟨dottedQuad_injective (hip.symm.trans hmask), ?_⟩
    have hroom := List.take_eq_self_iff _ |>.1 htake
    have hpos := hserver.length_bounds
    rw [hip] at hroom
    omega
  · rintro ⟨heq, hroom⟩
    have hbuffer : cmd.buffer order = dottedQuad cmd.wanAddress := by
      obtain h | h := order.buffer_eq cmd.wanAddress cmd.wanMask
      · exact h
      · exact h.trans (congrArg dottedQuad heq.symm)
    refine ⟨[cmd.name], hoptions.trans ?_⟩
    rw [hbuffer, List.take_of_length_le (by omega), values, ← heq]

theorem isDottedQuad_device : IsDottedQuad "10.0.3.2".toList := by
  have hquad : dottedQuad 0x0a000302 = "10.0.3.2".toList := by decide
  rw [← hquad]
  exact isDottedQuad_dottedQuad _

/-- An interface whose address is its own mask, with a VLAN of three digits. -/
theorem delivered_setwan :
    (setwan 0x0a000001 0x0a000001 100 0).Delivered .wanAddressFirst "10.0.3.2".toList :=
  (delivered_iff .wanAddressFirst (by decide) isDottedQuad_device).2 (by decide)

/-- The interface 10.0.0.1 with the mask 0.0.0.0: whichever address is written last, the client
reads it for both. -/
theorem not_delivered_setwan :
    ¬ (setwan 0x0a000001 0 100 0).Delivered .wanAddressFirst "10.0.3.2".toList ∧
      ¬ (setwan 0x0a000001 0 100 0).Delivered .wanMaskFirst "10.0.3.2".toList := by
  have hsame : ∀ order, ¬ (setwan 0x0a000001 0 100 0).Delivered order "10.0.3.2".toList := by
    rintro order ⟨args, hargs⟩
    rw [clientOptions_commandLine order (by decide) isDottedQuad_device] at hargs
    have hvalues := congrFun (congrArg Prod.fst (Option.some.inj hargs))
    have hquads : dottedQuad 0x0a000001 = dottedQuad 0 :=
      (hvalues .wanIP).symm.trans (hvalues .wanNetMask)
    exact absurd hquads (by decide)
  exact ⟨hsame _, hsame _⟩

end DeviceCommand

end OfAgent
