import OfAgent.Control.Message
import OfAgent.Lib.Transition
import OfAgent.Packet.Execute

/-!
# Connections over byte streams

`vconn-stream.c`: messages are written to a byte stream and read from it. A write may take only a
part of a message, and a read may return only a part of what is wanted, so that both ends keep a
buffer between calls.

* `streamRecv`, `streamDoTx`, `streamSend`: the functions of the file, on a `Wire` that the kernel
  chops as it likes.
* `StreamLink`: both ends of a connection, with the messages that have been accepted and the results
  that have been returned.
* `StreamLink.Carries`: the messages that have not been returned are in the buffers and on the wire.
* `StreamLink.delivers`: the results are the accepted messages, in order, and then the end.
-/

namespace OfAgent

/-! ### The stream -/

/-- `EAGAIN`. -/
def eAgain : ℤ := 11

/-- `EPROTO`. -/
def eProto : ℤ := 71

/-- A byte stream: what has been written and not been read yet. -/
structure Wire where
  /-- The bytes. -/
  bytes : List Byte
  /-- The writing end has been closed. -/
  closed : Bool

/-- What `read` returns. -/
inductive ReadResult
  /-- Some bytes. -/
  | data (bs : List Byte)
  /-- The end of the stream. -/
  | eof
  /-- An error. -/
  | error (errno : ℤ)

/-- What `write` returns. -/
inductive WriteResult
  /-- The number of bytes that have been taken. -/
  | sent (n : ℕ)
  /-- An error. -/
  | error (errno : ℤ)

namespace Wire

/-- `read`: the kernel has at most `ready` bytes at hand, if there are any. -/
def read (w : Wire) (ready want : ℕ) : ReadResult × Wire :=
  if ready = 0 then (.error eAgain, w)
  else if w.bytes = [] then (if w.closed then .eof else .error eAgain, w)
  else (.data (w.bytes.take (min ready want)), { w with bytes := w.bytes.drop (min ready want) })

/-- `write`: the bytes that have been taken follow the others. -/
def write (w : Wire) (bs : List Byte) : WriteResult → Wire
  | .sent n => { w with bytes := w.bytes ++ bs.take n }
  | .error _ => w

end Wire

/-! ### The functions -/

/-- `struct stream_vconn`, without its descriptor. -/
structure StreamVconn where
  /-- The message that is being received. -/
  rxbuf : Option (List Byte)
  /-- What is left of the message that is being sent. -/
  txbuf : Option (List Byte)
  /-- A callback waits until the descriptor can be written to. -/
  txWaiter : Bool

/-- What `stream_recv` returns. -/
inductive RecvResult
  /-- A message. -/
  | message (m : List Byte)
  /-- `EOF`. -/
  | eof
  /-- An error. -/
  | error (errno : ℤ)
  deriving DecidableEq

namespace StreamVconn

/-- `new_stream_vconn`. -/
def new : StreamVconn := ⟨none, none, false⟩

/-- `want_bytes`: how many bytes are missing, of the header first. A header with a length that is
too short is an error. -/
def wantBytes (rx : List Byte) : Except ℤ ℕ :=
  if rx.length < sizeofOfpHeader then .ok (sizeofOfpHeader - rx.length)
  else
    let length := (be16 rx 2).toNat
    if length < sizeofOfpHeader then .error eProto
    else .ok (Ofpbuf.subSize length rx.length)

/-- The body of `stream_recv` from `again` on. The kernel has `ready k` bytes at hand at the `k`-th
read. -/
def recvLoop (ready : ℕ → ℕ) (k : ℕ) (rx : List Byte) (w : Wire) :
    RecvResult × Option (List Byte) × Wire :=
  match wantBytes rx with
  | .error e => (.error e, some rx, w)
  | .ok 0 => (.message rx, none, w)
  | .ok (n + 1) =>
      match w.read (ready k) (n + 1) with
      | (.data bs, w) =>
          if _hlen : bs.length = n + 1 then
            if _hmore : sizeofOfpHeader < (rx ++ bs).length then (.message (rx ++ bs), none, w)
            -- only the header has been read
            else recvLoop ready (k + 1) (rx ++ bs) w
          else (.error eAgain, some (rx ++ bs), w)
      | (.eof, w) => (if rx.length ≠ 0 then .error eProto else .eof, some rx, w)
      | (.error e, w) => (.error e, some rx, w)
termination_by sizeofOfpHeader - rx.length
decreasing_by
  rw [List.length_append, _hlen] at _hmore ⊢
  unfold sizeofOfpHeader at *
  omega

/-- `stream_recv`. -/
def streamRecv (ready : ℕ → ℕ) (s : StreamVconn) (w : Wire) : RecvResult × StreamVconn × Wire :=
  let (result, rxbuf, w) := recvLoop ready 0 (s.rxbuf.getD []) w
  (result, { s with rxbuf }, w)

/-- `stream_clear_txbuf`. -/
def streamClearTxbuf (s : StreamVconn) : StreamVconn := { s with txbuf := none, txWaiter := false }

/-- `stream_do_tx`. It fails without a message to send. -/
def streamDoTx (result : WriteResult) (s : StreamVconn) (w : Wire) : Option (StreamVconn × Wire) :=
  match s.txbuf with
  | none => none
  | some buffer =>
      match result with
      | .error e =>
          if e ≠ eAgain then some (s.streamClearTxbuf, w)
          else some ({ s with txWaiter := true }, w)
      | .sent 0 => some ({ s with txWaiter := true }, w)
      | .sent n =>
          if (buffer.drop n).length = 0 then some (s.streamClearTxbuf, w.write buffer result)
          else some ({ s with txbuf := some (buffer.drop n), txWaiter := true },
            w.write buffer result)

/-- `stream_send`: the first component is its result. -/
def streamSend (buffer : List Byte) (result : WriteResult) (s : StreamVconn) (w : Wire) :
    ℤ × StreamVconn × Wire :=
  if s.txbuf.isSome then (eAgain, s, w)
  else
    match result with
    | .sent n =>
        if n = buffer.length then (0, s, w.write buffer result)
        else (0, { s with txbuf := some (buffer.drop n), txWaiter := true }, w.write buffer result)
    | .error e =>
        if e = eAgain then (0, { s with txbuf := some buffer, txWaiter := true }, w)
        else (e, s, w)

end StreamVconn

/-! ### Both ends -/

/-- An OpenFlow message whose header says how long it is. -/
structure IsMessage (m : List Byte) : Prop where
  /-- The header is whole. -/
  header_le : sizeofOfpHeader ≤ m.length
  /-- The length of the header is that of the message. -/
  length_eq : (be16 m 2).toNat = m.length

/-- A sender, a receiver and the stream between them. -/
structure StreamLink where
  /-- The sending end. -/
  sender : StreamVconn
  /-- The receiving end. -/
  receiver : StreamVconn
  /-- What is between them. -/
  wire : Wire
  /-- The messages that `stream_send` has accepted. -/
  accepted : List (List Byte)
  /-- What `stream_recv` has returned. -/
  results : List RecvResult

/-- What can happen. -/
inductive StreamEvent
  /-- A call of `stream_send`. -/
  | send (m : List Byte) (result : WriteResult)
  /-- The descriptor can be written to, and a callback waits for that. -/
  | doTx (result : WriteResult)
  /-- The sending end is closed. -/
  | close
  /-- A call of `stream_recv`. -/
  | recv (ready : ℕ → ℕ)

/-- The number of bytes that a write has taken. -/
def WriteResult.taken : WriteResult → ℕ
  | sent n => n
  | error _ => 0

/-- A write takes at most the bytes that it is given, and meets no other error than `EAGAIN`. -/
def WriteResult.Fits (size : ℕ) : WriteResult → Prop
  | sent n => n ≤ size
  | error e => e = eAgain

namespace StreamLink

/-- A new connection. -/
def init : StreamLink := ⟨.new, .new, ⟨[], false⟩, [], []⟩

/-- The connection after a call of `stream_recv`. -/
def recv (s : StreamLink) (ready : ℕ → ℕ) : StreamLink :=
  let (result, receiver, wire) := s.receiver.streamRecv ready s.wire
  { s with receiver, wire, results := s.results ++ [result] }

/-- The connection after a call of `stream_send`. -/
def send (s : StreamLink) (m : List Byte) (result : WriteResult) : StreamLink :=
  let (error, sender, wire) := s.sender.streamSend m result s.wire
  { s with sender, wire, accepted := if error = 0 then s.accepted ++ [m] else s.accepted }

/-- When an event can happen: messages are well formed, the callback is called when it waits, and
the sending end is closed when nothing is left to be sent. -/
def Enabled (s : StreamLink) : StreamEvent → Prop
  | .send m result => s.wire.closed = false ∧ IsMessage m ∧ result.Fits m.length
  | .doTx result => s.sender.txWaiter = true ∧ result.Fits (s.sender.txbuf.getD []).length
  | .close => s.sender.txbuf = none
  | .recv _ => True

/-- The connection after an event. -/
def next (s : StreamLink) : StreamEvent → Option StreamLink
  | .send m result => some (s.send m result)
  | .doTx result => (s.sender.streamDoTx result s.wire).map fun r =>
      { s with sender := r.1, wire := r.2 }
  | .close => some { s with wire := { s.wire with closed := true } }
  | .recv ready => some (s.recv ready)

/-- The step relation of a connection. -/
def Step (s : StreamLink) (e : StreamEvent) (s' : StreamLink) : Prop :=
  s.Enabled e ∧ s.next e = some s'

end StreamLink

/-! ### Reading a message -/

/-- The bytes that have been received, those on the wire and those to be sent are the pending
messages. No more than the first one has been received. -/
structure Carries (pending : List (List Byte)) (rx wire tx : List Byte) : Prop where
  /-- The messages are well formed. -/
  messages : ∀ m ∈ pending, IsMessage m
  /-- No byte is lost, and none is added. -/
  flatten : rx ++ wire ++ tx = pending.flatten
  /-- What has been received is a part of the first one. -/
  le : ∀ m ∈ pending.head?, rx.length ≤ m.length

/-- The first message has not been received completely. -/
def IsPartial (rx : List Byte) (pending : List (List Byte)) : Prop :=
  ∀ m ∈ pending.head?, rx.length < m.length

namespace Carries

variable {pending : List (List Byte)} {rx wire tx m : List Byte}

theorem eq_nil (h : Carries [] rx wire tx) : rx = [] ∧ wire = [] ∧ tx = [] := by
  have hflat := h.flatten
  rw [List.flatten_nil, List.append_eq_nil_iff, List.append_eq_nil_iff] at hflat
  exact ⟨hflat.1.1, hflat.1.2, hflat.2⟩

/-- What has been received is the start of the first message. -/
theorem isPrefix (h : Carries (m :: pending) rx wire tx) : rx <+: m := by
  have hle := h.le m rfl
  have hflat := h.flatten
  rw [List.flatten_cons, List.append_assoc] at hflat
  exact List.prefix_of_prefix_length_le (hflat ▸ List.prefix_append rx _) (List.prefix_append m _)
    hle

/-- A message that has been received completely. -/
theorem tail (h : Carries (m :: pending) rx wire tx) (hlen : rx.length = m.length) :
    rx = m ∧ Carries pending [] wire tx := by
  have heq : rx = m := h.isPrefix.eq_of_length hlen
  have hflat := h.flatten
  rw [List.flatten_cons, heq, List.append_assoc] at hflat
  refine ⟨heq, ⟨fun x hx => h.messages x (List.mem_cons_of_mem _ hx), List.append_cancel_left hflat,
    fun x _ => Nat.zero_le _⟩⟩

/-- What is missing: the rest of the header first, and then the rest of the message. -/
theorem wantBytes_eq (h : Carries (m :: pending) rx wire tx) :
    StreamVconn.wantBytes rx = .ok (if rx.length < sizeofOfpHeader then sizeofOfpHeader - rx.length
      else m.length - rx.length) := by
  obtain ⟨hheader, hlength⟩ := h.messages m List.mem_cons_self
  obtain ⟨rest, rfl⟩ := h.isPrefix
  unfold StreamVconn.wantBytes
  split
  next => rfl
  next hlen =>
    unfold sizeofOfpHeader at *
    have hle : rx.length ≤ (rx ++ rest).length := h.le _ rfl
    rw [be16_append (by omega)] at hlength
    rw [if_neg (by omega), Ofpbuf.subSize, hlength, if_pos hle]

/-- Bytes that are written move to the wire. -/
theorem write {rest : List Byte} (h : Carries pending rx wire (tx ++ rest)) :
    Carries pending rx (wire ++ tx) rest where
  messages := h.messages
  flatten := by rw [← h.flatten, List.append_assoc, List.append_assoc, List.append_assoc]
  le := h.le

/-- Another message is to be sent behind the others. -/
theorem concat (h : Carries pending rx wire []) (hm : IsMessage m) :
    Carries (pending ++ [m]) rx wire m where
  messages x hx := (List.mem_append.1 hx).elim (h.messages x) fun hx => List.mem_singleton.1 hx ▸ hm
  flatten := by
    have hflat := h.flatten
    rw [List.append_nil] at hflat
    rw [hflat, List.flatten_append, List.flatten_singleton]
  le x hx := by
    cases pending with
    | nil =>
      rw [h.eq_nil.1]
      exact Nat.zero_le _
    | cons first rest => exact h.le x hx

/-- The first message stays the first one. -/
theorem isPartial_concat (h : Carries pending rx wire tx) (hshort : IsPartial rx pending)
    (hm : IsMessage m) : IsPartial rx (pending ++ [m]) := by
  cases pending with
  | nil =>
    intro x hx
    cases hx
    rw [h.eq_nil.1]
    exact Nat.lt_of_lt_of_le (by decide) hm.header_le
  | cons first rest => exact hshort

end Carries

namespace StreamVconn

variable {ready : ℕ → ℕ} {k : ℕ} {rx tx : List Byte} {w : Wire} {pending : List (List Byte)}

/-- The loop when bytes are missing. -/
theorem recvLoop_of_want {n : ℕ} (hwant : wantBytes rx = .ok (n + 1)) :
    recvLoop ready k rx w =
      match w.read (ready k) (n + 1) with
      | (.data bs, w') =>
          if bs.length = n + 1 then
            if sizeofOfpHeader < (rx ++ bs).length then (.message (rx ++ bs), none, w')
            else recvLoop ready (k + 1) (rx ++ bs) w'
          else (.error eAgain, some (rx ++ bs), w')
      | (.eof, w') => (if rx.length ≠ 0 then .error eProto else .eof, some rx, w')
      | (.error e, w') => (.error e, some rx, w') := by
  rw [recvLoop, hwant]
  rfl

/-- What a call of `stream_recv` does with the pending messages: it returns the first one, or keeps
what it has got, or meets the end of the stream. -/
def Receives (pending : List (List Byte)) (tx : List Byte) (closed : Bool) :
    RecvResult × Option (List Byte) × Wire → Prop
  | (.message m, none, w') =>
      w'.closed = closed ∧ ∃ rest, pending = m :: rest ∧ Carries rest [] w'.bytes tx
  | (.error e, some rx, w') =>
      w'.closed = closed ∧ e = eAgain ∧ Carries pending rx w'.bytes tx ∧ IsPartial rx pending
  | (.eof, some rx, w') =>
      w'.closed = closed ∧ closed = true ∧ pending = [] ∧ Carries [] rx w'.bytes tx
  | _ => False

/-- A read that has nothing at hand, or not yet. -/
theorem read_eq (w : Wire) (ready want : ℕ) :
    (w.read ready want = (.error eAgain, w) ∧ (ready = 0 ∨ w.bytes = [] ∧ w.closed = false)) ∨
      (w.read ready want = (.eof, w) ∧ w.bytes = [] ∧ w.closed = true) ∨
      (w.read ready want = (.data (w.bytes.take (min ready want)),
        { w with bytes := w.bytes.drop (min ready want) }) ∧ ready ≠ 0 ∧ w.bytes ≠ []) := by
  unfold Wire.read
  by_cases hready : ready = 0
  · exact .inl ⟨if_pos hready, .inl hready⟩
  · rw [if_neg hready]
    by_cases hbytes : w.bytes = []
    · rw [if_pos hbytes]
      cases hclosed : w.closed with
      | false => exact .inl ⟨rfl, .inr ⟨hbytes, rfl⟩⟩
      | true => exact .inr (.inl ⟨rfl, hbytes, rfl⟩)
    · exact .inr (.inr ⟨if_neg hbytes, hready, hbytes⟩)

/-- Bytes that have been read move from the wire to the buffer. -/
theorem carries_take (h : Carries pending rx w.bytes tx) {n : ℕ}
    (hle : ∀ m ∈ pending.head?, (rx ++ w.bytes.take n).length ≤ m.length) :
    Carries pending (rx ++ w.bytes.take n) (w.bytes.drop n) tx where
  messages := h.messages
  flatten := by rw [List.append_assoc rx, List.take_append_drop, h.flatten]
  le := hle

/-- With no message pending, a call meets the end of the stream, or nothing. -/
theorem receives_nil (h : Carries [] rx w.bytes tx) :
    Receives [] tx w.closed (recvLoop ready k rx w) := by
  obtain ⟨rfl, hbytes, -⟩ := h.eq_nil
  rw [recvLoop_of_want (n := 7) rfl]
  rcases read_eq w (ready k) 8 with ⟨hread, -⟩ | ⟨hread, -, hclosed⟩ | ⟨hread, -, hne⟩
  · rw [hread]
    exact ⟨rfl, rfl, h, fun m hm => by cases hm⟩
  · rw [hread]
    exact ⟨rfl, hclosed, rfl, h⟩
  · exact absurd hbytes hne

/-- A call receives what is pending, however the kernel chops the stream. -/
theorem receives_recvLoop (hclosed : w.closed = true → tx = [])
    (h : Carries pending rx w.bytes tx) : Receives pending tx w.closed (recvLoop ready k rx w) := by
  -- by induction on how much of the header is missing
  induction hn : sizeofOfpHeader - rx.length using Nat.strong_induction_on
    generalizing k rx w with
  | _ n ih =>
    cases pending with
    | nil => exact receives_nil h
    | cons m rest =>
      have hheader := (h.messages m List.mem_cons_self).header_le
      have hle : rx.length ≤ m.length := h.le m rfl
      have hwant := h.wantBytes_eq
      obtain ⟨want, hw⟩ : ∃ want, (if rx.length < sizeofOfpHeader then sizeofOfpHeader - rx.length
        else m.length - rx.length) = want := ⟨_, rfl⟩
      rw [hw] at hwant
      cases want with
      | zero =>
        -- the message is complete
        have hlen : rx.length = m.length := by split at hw <;> omega
        rw [recvLoop, hwant]
        obtain ⟨rfl, htail⟩ := h.tail hlen
        exact ⟨rfl, rest, rfl, htail⟩
      | succ want =>
        have hroom : rx.length + (want + 1) ≤ m.length := by split at hw <;> omega
        have hshort : IsPartial rx (m :: rest) := fun x hx => by
          cases hx
          omega
        rw [recvLoop_of_want hwant]
        rcases read_eq w (ready k) (want + 1) with ⟨hread, -⟩ | ⟨hread, hbytes, hend⟩ | ⟨hread, -⟩
        · rw [hread]
          exact ⟨rfl, rfl, h, hshort⟩
        · -- the stream does not end within a message
          have hflat := congrArg List.length h.flatten
          rw [hbytes, hclosed hend] at hflat
          simp only [List.append_nil, List.flatten_cons, List.length_append] at hflat
          omega
        · obtain ⟨bs, hbs⟩ : ∃ bs, w.bytes.take (min (ready k) (want + 1)) = bs := ⟨_, rfl⟩
          have hshort : bs.length ≤ want + 1 := by
            rw [← hbs, List.length_take]
            omega
          have hcarries : Carries (m :: rest) (rx ++ bs) (w.bytes.drop (min (ready k) (want + 1)))
              tx := by
            rw [← hbs]
            refine carries_take h fun x hx => ?_
            cases hx
            rw [hbs, List.length_append]
            omega
          rw [hread, hbs]
          simp only
          split
          next hfull =>
            have hlen : (rx ++ bs).length = rx.length + (want + 1) := by
              rw [List.length_append, hfull]
            split
            next hmore =>
              obtain ⟨heq, htail⟩ := hcarries.tail (by split at hw <;> omega)
              rw [heq]
              exact ⟨rfl, rest, rfl, htail⟩
            next hmore =>
              refine ih _ ?_ hclosed hcarries rfl
              rw [hlen] at hmore ⊢
              unfold sizeofOfpHeader at *
              omega
          next hpart =>
            refine ⟨rfl, rfl, hcarries, fun x hx => ?_⟩
            cases hx
            rw [List.length_append]
            omega

/-- A read takes bytes from the wire. -/
theorem length_le_of_read {w' : Wire} {r : ReadResult} {ready want : ℕ}
    (h : w.read ready want = (r, w')) : w'.bytes.length ≤ w.bytes.length := by
  rcases read_eq w ready want with ⟨hread, -⟩ | ⟨hread, -⟩ | ⟨hread, -⟩
  · rw [h] at hread
    exact (Prod.mk.inj hread).2 ▸ Nat.le_refl _
  · rw [h] at hread
    exact (Prod.mk.inj hread).2 ▸ Nat.le_refl _
  · rw [h] at hread
    rw [(Prod.mk.inj hread).2, List.length_drop]
    omega

/-- So does a call. -/
theorem length_recvLoop_le (ready : ℕ → ℕ) (k : ℕ) (rx : List Byte) (w : Wire) :
    (recvLoop ready k rx w).2.2.bytes.length ≤ w.bytes.length := by
  fun_induction recvLoop ready k rx w with
  | case1 => exact Nat.le_refl _
  | case2 => exact Nat.le_refl _
  | case3 k rx w n hwant bs w' hread => exact length_le_of_read hread
  | case4 k rx w n hwant bs w' hread hlen hmore ih => exact ih.trans (length_le_of_read hread)
  | case5 k rx w n hwant bs w' hread => exact length_le_of_read hread
  | case6 k rx w n hwant w' hread => exact length_le_of_read hread
  | case7 k rx w n hwant e w' hread => exact length_le_of_read hread

/-- A call takes at least one byte from the wire when there are some at hand. -/
theorem length_recvLoop_lt (h : Carries pending rx w.bytes tx) (hshort : IsPartial rx pending)
    (hready : ready k ≠ 0) (hne : w.bytes ≠ []) :
    (recvLoop ready k rx w).2.2.bytes.length < w.bytes.length := by
  cases pending with
  | nil => exact absurd h.eq_nil.2.1 hne
  | cons m rest =>
    have hlt : rx.length < m.length := hshort m rfl
    have hheader := (h.messages m List.mem_cons_self).header_le
    obtain ⟨n, hwant⟩ : ∃ n, wantBytes rx = .ok (n + 1) := by
      refine ⟨_, h.wantBytes_eq.trans (congrArg Except.ok (Nat.succ_pred_eq_of_ne_zero ?_).symm)⟩
      split <;> omega
    have hpos := List.length_pos_iff.2 hne
    rw [recvLoop_of_want hwant, (read_eq w (ready k) (n + 1)).resolve_left (fun hnone =>
      hnone.2.elim hready fun hnil => hne hnil.1) |>.resolve_left (fun hend => hne hend.2.1) |>.1]
    have hdrop : (w.bytes.drop (min (ready k) (n + 1))).length < w.bytes.length := by
      rw [List.length_drop]
      omega
    simp only
    split
    · split
      · exact hdrop
      · exact (length_recvLoop_le ..).trans_lt hdrop
    · exact hdrop

end StreamVconn

/-! ### Runs -/

/-- The message that a call has returned. -/
def RecvResult.returned : RecvResult → Option (List Byte)
  | message m => some m
  | eof | error _ => none

namespace StreamLink

variable {s s' : StreamLink} {e : StreamEvent}

/-- The messages that have been returned. -/
def received (s : StreamLink) : List (List Byte) := s.results.filterMap RecvResult.returned

/-- The results other than `EAGAIN`. -/
def outcomes (s : StreamLink) : List RecvResult := s.results.filter fun r => r ≠ .error eAgain

/-- What every run keeps. -/
structure Consistent (s : StreamLink) : Prop where
  /-- The messages are well formed. -/
  messages : ∀ m ∈ s.accepted, IsMessage m
  /-- The messages that have been accepted and not been returned are pending. -/
  carries : ∃ pending, s.accepted = s.received ++ pending ∧
    Carries pending (s.receiver.rxbuf.getD []) s.wire.bytes (s.sender.txbuf.getD []) ∧
    IsPartial (s.receiver.rxbuf.getD []) pending
  /-- A callback waits exactly when something is left to be sent. -/
  waiter : s.sender.txWaiter = s.sender.txbuf.isSome
  /-- What is left to be sent is not empty. -/
  txbuf : s.sender.txbuf ≠ some []
  /-- Nothing is sent after the end. -/
  closed : s.wire.closed = true → s.sender.txbuf = none
  /-- The results are the messages, and then the end. -/
  ended : ∃ j, s.outcomes = s.received.map .message ++ List.replicate j .eof ∧
    (0 < j → s.wire.closed = true ∧ s.received = s.accepted)

theorem consistent_init : Consistent init where
  messages m hm := absurd hm List.not_mem_nil
  carries := ⟨[], rfl, ⟨fun m hm => absurd hm List.not_mem_nil, rfl, fun m hm => by cases hm⟩,
    fun m hm => by cases hm⟩
  waiter := rfl
  txbuf h := by cases h
  closed h := by cases h
  ended := ⟨0, rfl, fun h => absurd h (Nat.lt_irrefl 0)⟩

/-- A message that is accepted, of which the first `n` bytes are written. -/
theorem Consistent.accept {m : List Byte} (h : s.Consistent) (hm : IsMessage m)
    (hclosed : s.wire.closed = false) (hnone : s.sender.txbuf = none) (sender : StreamVconn) (n : ℕ)
    (hrest : sender.txbuf.getD [] = m.drop n) (hwaiter : sender.txWaiter = sender.txbuf.isSome)
    (hne : sender.txbuf ≠ some []) :
    ({ s with
      sender
      wire := { s.wire with bytes := s.wire.bytes ++ m.take n }
      accepted := s.accepted ++ [m] } : StreamLink).Consistent := by
  obtain ⟨pending, haccepted, hcarries, hshort⟩ := h.carries
  rw [hnone] at hcarries
  have hconcat : Carries (pending ++ [m]) (s.receiver.rxbuf.getD []) s.wire.bytes
      (m.take n ++ m.drop n) := by
    rw [List.take_append_drop]
    exact hcarries.concat hm
  have hopen : ¬ s.wire.closed = true := by
    rw [hclosed]
    exact Bool.false_ne_true
  refine ⟨fun x hx => ?_, ⟨pending ++ [m], ?_, ?_, hcarries.isPartial_concat hshort hm⟩, hwaiter,
    hne, fun htrue => absurd htrue hopen, ?_⟩
  · exact (List.mem_append.1 hx).elim (h.messages x) fun hx => List.mem_singleton.1 hx ▸ hm
  · change s.accepted ++ [m] = s.received ++ (pending ++ [m])
    rw [haccepted, List.append_assoc]
  · rw [hrest]
    exact hconcat.write
  · obtain ⟨j, houtcomes, hend⟩ := h.ended
    exact ⟨j, houtcomes, fun hj => absurd (hend hj).1 hopen⟩

/-- A call of `stream_send`. -/
theorem Consistent.send (h : s.Consistent) {m : List Byte} {result : WriteResult}
    (hclosed : s.wire.closed = false) (hm : IsMessage m) (hfits : result.Fits m.length) :
    (s.send m result).Consistent := by
  have hlen := hm.header_le
  unfold StreamLink.send StreamVconn.streamSend
  cases hnone : s.sender.txbuf with
  | some buffer => exact h
  | none =>
    cases result with
    | error e =>
      -- nothing has been written, and the message waits in the buffer
      rw [WriteResult.Fits] at hfits
      subst hfits
      have haccept := h.accept hm hclosed hnone
        { s.sender with txbuf := some m, txWaiter := true } 0 rfl rfl fun hnil => by
          rw [Option.some.inj hnil] at hlen
          exact absurd hlen (by decide)
      rw [List.take_zero, List.append_nil] at haccept
      exact haccept
    | sent n =>
      simp only [Option.isSome_none, Bool.false_eq_true, if_false]
      by_cases hfull : n = m.length
      · rw [if_pos hfull]
        have hrest : s.sender.txbuf.getD [] = m.drop n := by
          rw [hnone, hfull, List.drop_length]
          rfl
        exact h.accept hm hclosed hnone s.sender n hrest h.waiter h.txbuf
      · rw [if_neg hfull]
        -- the rest of the message waits in the buffer
        exact h.accept hm hclosed hnone { s.sender with txbuf := some (m.drop n), txWaiter := true }
          n
          rfl rfl fun hnil =>
            hfull (Nat.le_antisymm hfits (List.drop_eq_nil_iff.1 (Option.some.inj hnil)))

/-- What is left of a message, of which the first `n` bytes are written. -/
theorem Consistent.progress {buffer : List Byte} (h : s.Consistent)
    (hsome : s.sender.txbuf = some buffer) (sender : StreamVconn) (n : ℕ)
    (hrest : sender.txbuf.getD [] = buffer.drop n) (hwaiter : sender.txWaiter = sender.txbuf.isSome)
    (hne : sender.txbuf ≠ some []) :
    ({ s with
      sender
      wire := { s.wire with bytes := s.wire.bytes ++ buffer.take n } } :
        StreamLink).Consistent := by
  obtain ⟨pending, haccepted, hcarries, hshort⟩ := h.carries
  have hsplit : s.sender.txbuf.getD [] = buffer.take n ++ buffer.drop n := by
    rw [List.take_append_drop, hsome]
    rfl
  rw [hsplit] at hcarries
  refine ⟨h.messages, ⟨pending, haccepted, ?_, hshort⟩, hwaiter, hne, fun htrue => ?_, h.ended⟩
  · rw [hrest]
    exact hcarries.write
  · have hnone := h.closed htrue
    rw [hsome] at hnone
    cases hnone

/-- A call of `stream_do_tx`, which always finds something to send. -/
theorem Consistent.doTx (h : s.Consistent) {result : WriteResult}
    (hwaiter : s.sender.txWaiter = true)
    (hfits : result.Fits (s.sender.txbuf.getD []).length) :
    ∃ r, s.sender.streamDoTx result s.wire = some r ∧
      ({ s with sender := r.1, wire := r.2 } : StreamLink).Consistent ∧
      r.1.txbuf.getD [] = (s.sender.txbuf.getD []).drop result.taken := by
  obtain ⟨buffer, hsome⟩ := Option.isSome_iff_exists.1 (h.waiter ▸ hwaiter)
  -- nothing is sent, and only the waiter is set, which is set already
  have hsame :
      ({ s with sender := { s.sender with txWaiter := true } } : StreamLink).Consistent := by
    rw [← hwaiter]
    exact h
  unfold StreamVconn.streamDoTx
  rw [hsome]
  cases result with
  | error e =>
    rw [WriteResult.Fits] at hfits
    exact ⟨_, if_neg (not_not.2 hfits), hsome ▸ hsame, by simp [WriteResult.taken]⟩
  | sent n =>
    cases n with
    | zero => exact ⟨_, rfl, hsome ▸ hsame, by simp [WriteResult.taken]⟩
    | succ n =>
      by_cases hdone : (buffer.drop (n + 1)).length = 0
      · refine ⟨_, if_pos hdone, ?_, (List.length_eq_zero_iff.1 hdone).symm⟩
        exact h.progress hsome s.sender.streamClearTxbuf (n + 1)
          (List.length_eq_zero_iff.1 hdone).symm rfl fun hnil => by cases hnil
      · refine ⟨_, if_neg hdone, ?_, rfl⟩
        exact h.progress hsome
          { s.sender with txbuf := some (buffer.drop (n + 1)), txWaiter := true }
          (n + 1) rfl rfl fun hnil => hdone (by rw [Option.some.inj hnil]; rfl)

/-- A call of `stream_recv`. -/
theorem Consistent.recv (h : s.Consistent) (ready : ℕ → ℕ) : (s.recv ready).Consistent := by
  obtain ⟨pending, haccepted, hcarries, hshort⟩ := h.carries
  obtain ⟨j, houtcomes, hend⟩ := h.ended
  have hreceives := @StreamVconn.receives_recvLoop ready 0 _ _ s.wire pending
    (fun htrue => by rw [h.closed htrue]; rfl) hcarries
  unfold StreamLink.recv StreamVconn.streamRecv
  obtain ⟨result, rxbuf, wire, hrun⟩ : ∃ result rxbuf wire,
      StreamVconn.recvLoop ready 0 (s.receiver.rxbuf.getD []) s.wire = (result, rxbuf, wire) :=
    ⟨_, _, _, rfl⟩
  rw [hrun] at hreceives ⊢
  simp only
  cases result with
  | message m =>
    cases rxbuf with
    | some rx => exact hreceives.elim
    | none =>
      -- the first message of those that are under way
      obtain ⟨hsame, rest, rfl, hrest⟩ := hreceives
      have hmore : s.received ≠ s.accepted := fun heq => by
        rw [← heq] at haccepted
        exact List.cons_ne_nil m rest (List.self_eq_append_right.1 haccepted)
      have hzero : j = 0 := Nat.eq_zero_of_not_pos fun hj => hmore (hend hj).2
      refine ⟨h.messages, ⟨rest, ?_, hrest, fun x hx => ?_⟩, h.waiter, h.txbuf, hsame ▸ h.closed,
        ⟨0, ?_, fun hj => absurd hj (Nat.lt_irrefl 0)⟩⟩
      · change s.accepted = (s.results ++ [RecvResult.message m]).filterMap _ ++ rest
        rw [List.filterMap_append, haccepted, List.append_cons]
        rfl
      · have hpos : 0 < sizeofOfpHeader := by decide
        exact hpos.trans_le (hrest.messages x (List.mem_of_mem_head? hx)).header_le
      · subst hzero
        rw [List.replicate_zero, List.append_nil] at houtcomes ⊢
        change (s.results ++ [RecvResult.message m]).filter _ =
          ((s.results ++ [RecvResult.message m]).filterMap _).map _
        rw [List.filter_append, List.filterMap_append, List.map_append]
        exact congrArg (· ++ [RecvResult.message m]) houtcomes
  | eof =>
    cases rxbuf with
    | none => exact hreceives.elim
    | some rx =>
      -- the stream has ended, and no message is under way any more
      obtain ⟨hsame, htrue, rfl, hrest⟩ := hreceives
      have hreceived : (s.results ++ [RecvResult.eof]).filterMap RecvResult.returned =
        s.received := by
        rw [List.filterMap_append]
        exact List.append_nil _
      refine ⟨h.messages, ⟨[], ?_, hrest, fun x hx => by cases hx⟩, h.waiter, h.txbuf,
        hsame ▸ h.closed, ⟨j + 1, ?_, fun _ => ⟨hsame.trans htrue, ?_⟩⟩⟩
      · exact haccepted.trans (congrArg (· ++ []) hreceived.symm)
      · change (s.results ++ [RecvResult.eof]).filter _ =
          ((s.results ++ [RecvResult.eof]).filterMap RecvResult.returned).map _ ++ _
        rw [hreceived, List.filter_append, List.replicate_succ', ← List.append_assoc]
        exact congrArg (· ++ [RecvResult.eof]) houtcomes
      · exact hreceived.trans (haccepted.trans (List.append_nil _)).symm
  | error e =>
    cases rxbuf with
    | none => exact hreceives.elim
    | some rx =>
      -- no whole message is there yet: what there is of it stays in the buffer
      obtain ⟨hsame, rfl, hrest, hpart⟩ := hreceives
      have hreceived : (s.results ++ [RecvResult.error eAgain]).filterMap RecvResult.returned =
          s.received := by
        rw [List.filterMap_append]
        exact List.append_nil _
      have hfilter : (s.results ++ [RecvResult.error eAgain]).filter (fun r => r ≠ .error eAgain) =
          s.outcomes := by
        rw [List.filter_append, List.filter_singleton]
        simp [StreamLink.outcomes]
      refine ⟨h.messages, ⟨pending, ?_, hrest, hpart⟩, h.waiter, h.txbuf, hsame ▸ h.closed,
        ⟨j, ?_, fun hj => ⟨hsame.trans (hend hj).1, hreceived.trans (hend hj).2⟩⟩⟩
      · exact haccepted.trans (congrArg (· ++ pending) hreceived.symm)
      · exact hfilter.trans (houtcomes.trans (by rw [← hreceived]; rfl))

/-- Every event keeps the connection consistent. -/
theorem Consistent.step (h : s.Consistent) (hstep : Step s e s') : s'.Consistent := by
  obtain ⟨henabled, hnext⟩ := hstep
  cases e with
  | send m result =>
    obtain ⟨hclosed, hm, hfits⟩ := henabled
    exact Option.some.inj hnext ▸ h.send hclosed hm hfits
  | doTx result =>
    obtain ⟨r, hrun, hr, -⟩ := h.doTx henabled.1 henabled.2
    simp only [next, hrun, Option.map_some] at hnext
    exact Option.some.inj hnext ▸ hr
  | close =>
    rw [← Option.some.inj hnext]
    obtain ⟨j, houtcomes, hend⟩ := h.ended
    exact ⟨h.messages, h.carries, h.waiter, h.txbuf, fun _ => henabled,
      ⟨j, houtcomes, fun hj => ⟨rfl, (hend hj).2⟩⟩⟩
  | recv ready => exact Option.some.inj hnext ▸ h.recv ready

/-- So does every run. -/
theorem consistent_of_reachable (h : Transition.Reachable Step init s) : s.Consistent :=
  h.invariant Consistent consistent_init fun _ _ _ hs _ hstep => hs.step hstep

/-! ### Delivery -/

/-- When every byte has been read, every message has been returned. -/
theorem Consistent.received_eq (h : s.Consistent) (hbytes : s.wire.bytes = [])
    (htxbuf : s.sender.txbuf = none) :
    s.received = s.accepted ∧ s.receiver.rxbuf.getD [] = [] := by
  obtain ⟨pending, haccepted, hcarries, hshort⟩ := h.carries
  rw [hbytes, htxbuf] at hcarries
  cases pending with
  | nil => exact ⟨(haccepted.trans (List.append_nil _)).symm, hcarries.eq_nil.1⟩
  | cons m rest =>
    -- the bytes of the first message would have been received
    have hlt : (s.receiver.rxbuf.getD []).length < m.length := hshort m rfl
    have hflat := congrArg List.length hcarries.flatten
    simp only [Option.getD_none, List.append_nil, List.flatten_cons, List.length_append] at hflat
    omega

/-- A call at the end of the stream says so. -/
theorem Consistent.recv_eof (h : s.Consistent) (hclosed : s.wire.closed = true)
    (hbytes : s.wire.bytes = []) {ready : ℕ → ℕ} (hready : ready 0 ≠ 0) :
    .eof ∈ (s.recv ready).results := by
  have hrx := (h.received_eq hbytes (h.closed hclosed)).2
  have hread : s.wire.read (ready 0) 8 = (.eof, s.wire) := by
    rw [Wire.read, if_neg hready, if_pos hbytes, if_pos hclosed]
  have hrun : StreamVconn.recvLoop ready 0 [] s.wire = (.eof, some [], s.wire) := by
    rw [StreamVconn.recvLoop_of_want (n := 7) rfl, hread]
    rfl
  simp only [StreamLink.recv, StreamVconn.streamRecv, hrx, hrun]
  exact List.mem_append_right _ (List.mem_singleton.2 rfl)

/-- A call takes bytes from the wire, at least one when there are some at hand. -/
theorem Consistent.length_recv (h : s.Consistent) (ready : ℕ → ℕ) :
    (s.recv ready).wire.bytes.length ≤ s.wire.bytes.length ∧
      (ready 0 ≠ 0 → s.wire.bytes ≠ [] →
        (s.recv ready).wire.bytes.length < s.wire.bytes.length) := by
  obtain ⟨pending, -, hcarries, hshort⟩ := h.carries
  exact ⟨StreamVconn.length_recvLoop_le .., StreamVconn.length_recvLoop_lt hcarries hshort⟩

/-- Calls leave the end closed, and the messages accepted. -/
theorem Consistent.recv_frame (h : s.Consistent) (ready : ℕ → ℕ) :
    (s.recv ready).wire.closed = s.wire.closed ∧ (s.recv ready).accepted = s.accepted := by
  obtain ⟨pending, -, hcarries, -⟩ := h.carries
  have hreceives := @StreamVconn.receives_recvLoop ready 0 _ _ s.wire pending
    (fun htrue => by rw [h.closed htrue]; rfl) hcarries
  refine ⟨?_, rfl⟩
  unfold StreamLink.recv StreamVconn.streamRecv
  obtain ⟨result, rxbuf, wire, hrun⟩ : ∃ result rxbuf wire,
      StreamVconn.recvLoop ready 0 (s.receiver.rxbuf.getD []) s.wire = (result, rxbuf, wire) :=
    ⟨_, _, _, rfl⟩
  rw [hrun] at hreceives ⊢
  cases result <;> cases rxbuf <;> first | exact hreceives.1 | exact hreceives.elim

/-- Enough calls reach the end of a closed stream. -/
theorem Consistent.exists_eof (h : s.Consistent) (hclosed : s.wire.closed = true)
    {calls : List (ℕ → ℕ)} (hcalls : s.wire.bytes.length < calls.countP fun ready => ready 0 ≠ 0) :
    .eof ∈ (calls.foldl StreamLink.recv s).results ∧ (calls.foldl StreamLink.recv s).accepted =
      s.accepted ∧
      (calls.foldl StreamLink.recv s).Consistent := by
  -- once the end has been reported, it stays among the results
  have hkeep : ∀ (calls : List (ℕ → ℕ)) {s : StreamLink}, s.Consistent → .eof ∈ s.results →
      .eof ∈ (calls.foldl StreamLink.recv s).results ∧ (calls.foldl StreamLink.recv s).accepted =
        s.accepted ∧
        (calls.foldl StreamLink.recv s).Consistent := by
    intro calls
    induction calls with
    | nil => exact fun hs hmem => ⟨hmem, rfl, hs⟩
    | cons ready calls ih => exact fun hs hmem => ih (hs.recv ready) (List.mem_append_left _ hmem)
  induction calls generalizing s with
  | nil => exact absurd hcalls (Nat.not_lt_zero _)
  | cons ready calls ih =>
    rw [List.countP_cons] at hcalls
    by_cases hend : ready 0 ≠ 0 ∧ s.wire.bytes = []
    · exact hkeep calls (h.recv ready) (h.recv_eof hclosed hend.2 hend.1)
    · obtain ⟨hframe, -⟩ := h.recv_frame ready
      obtain ⟨hle, hlt⟩ := h.length_recv ready
      refine ih (h.recv ready) (hframe.trans hclosed) ?_
      by_cases hready : ready 0 = 0
      · rw [if_neg (by rw [hready]; decide)] at hcalls
        exact hle.trans_lt hcalls
      · have hlt := hlt hready fun hnil => hend ⟨hready, hnil⟩
        rw [if_pos (decide_eq_true hready)] at hcalls
        omega

/-- In every run, what the calls of `stream_recv` return, apart from `EAGAIN`, are the accepted
messages, in order, each once, and then the end of the stream, which comes only when all of them
have been returned. When every byte has been read they have been. What is left of a message is
handed to the next write; and when the sending end is closed, calls that find something at hand
reach the end, however few bytes it is each time. -/
theorem delivers (h : Transition.Reachable Step init s) :
    (s.received <+: s.accepted ∧
      ∃ j, s.outcomes = s.received.map .message ++ List.replicate j .eof ∧
        (0 < j → s.wire.closed = true ∧ s.received = s.accepted)) ∧
    (s.wire.bytes = [] → s.sender.txbuf = none → s.received = s.accepted) ∧
    (∀ buffer, s.sender.txbuf = some buffer → buffer ≠ [] ∧
      ∀ result : WriteResult, result.Fits buffer.length → ∃ s', Step s (.doTx result) s' ∧
        s'.sender.txbuf.getD [] = buffer.drop result.taken) ∧
    (s.wire.closed = true → ∀ calls : List (ℕ → ℕ),
      s.wire.bytes.length < (calls.countP fun ready => ready 0 ≠ 0) →
      ∃ j, (calls.foldl recv s).outcomes =
        s.accepted.map .message ++ List.replicate (j + 1) .eof) := by
  have hs := consistent_of_reachable h
  refine ⟨⟨?_, hs.ended⟩, fun hbytes htxbuf => (hs.received_eq hbytes htxbuf).1,
    fun buffer hsome => ⟨fun hnil => ?_, fun result hfits => ?_⟩, fun hclosed calls hcalls => ?_⟩
  · obtain ⟨pending, haccepted, -⟩ := hs.carries
    exact haccepted ▸ List.prefix_append _ _
  · exact hs.txbuf (hnil ▸ hsome)
  · have hwaiter : s.sender.txWaiter = true := by rw [hs.waiter, hsome]; rfl
    have hfits' : result.Fits (s.sender.txbuf.getD []).length := by rw [hsome]; exact hfits
    obtain ⟨r, hrun, -, hrest⟩ := hs.doTx hwaiter hfits'
    rw [hsome] at hrest
    exact ⟨_, ⟨⟨hwaiter, hfits'⟩, by rw [next, hrun]; rfl⟩, hrest⟩
  · obtain ⟨hmem, haccepted, hcons⟩ := hs.exists_eof hclosed hcalls
    -- enough calls reach the end, so that it is among the outcomes
    obtain ⟨j, houtcomes, hend⟩ := hcons.ended
    cases j with
    | zero =>
      have hmem' : RecvResult.eof ∈ (calls.foldl recv s).outcomes :=
        List.mem_filter.2 ⟨hmem, by decide⟩
      rw [houtcomes, List.replicate_zero, List.append_nil] at hmem'
      obtain ⟨m, -, hm⟩ := List.mem_map.1 hmem'
      cases hm
    | succ j => exact ⟨j, by rw [houtcomes, (hend (Nat.succ_pos j)).2, haccepted]⟩

/-- A message without a body. -/
def helloBytes : List Byte := [1, 0, 0, 8, 0, 0, 0, 0]

/-- The connection when this message has been written in two parts and the end is closed. -/
def helloLink : StreamLink where
  sender := .new
  receiver := .new
  wire := ⟨helloBytes, true⟩
  accepted := [helloBytes]
  results := []

/-- Some run leads there. -/
theorem reachable_helloLink : Transition.Reachable Step init helloLink := by
  have hm : IsMessage helloBytes := ⟨by decide, by decide⟩
  have hfive : (WriteResult.sent 5).Fits helloBytes.length := (by decide : 5 ≤ 8)
  have hthree : (WriteResult.sent 3).Fits 3 := Nat.le_refl 3
  have hsend : Step init (.send helloBytes (.sent 5)) (init.send helloBytes (.sent 5)) :=
    ⟨⟨rfl, hm, hfive⟩, rfl⟩
  have htx : Step (init.send helloBytes (.sent 5)) (.doTx (.sent 3))
      { helloLink with wire := ⟨helloBytes, false⟩ } := ⟨⟨rfl, hthree⟩, rfl⟩
  have hclose : Step { helloLink with wire := ⟨helloBytes, false⟩ } .close helloLink := ⟨rfl, rfl⟩
  exact (((Transition.Reachable.step .refl hsend).step htx).step hclose)

/-- The message is returned once, when the kernel has three bytes at hand each time. -/
theorem delivers_hello : ∃ j, ((List.replicate 9 fun _ => 3).foldl recv helloLink).outcomes =
    [.message helloBytes] ++ List.replicate (j + 1) .eof :=
  (delivers reachable_helloLink).2.2.2 rfl _ (by decide)

end StreamLink

end OfAgent
