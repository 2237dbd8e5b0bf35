import SpinVpn.Tun.ChunkBuffer

/-!
# PacketBuffer — a buffer between two interfaces

`badvpn/flow/PacketBuffer.c`.  The component receives packets into a circular buffer and sends them
from there.  At any time at most one receive and at most one send are under way; each was started
with an address in the array that has to stay good until its done handler runs.

The buffer is made for a number of packets of the largest size.  While it holds fewer, a receive is
under way, and while it holds any, a send is (`packetBuffer_fifo`): nothing is lost or reordered, and
the component never stops.
-/

namespace SpinVpn
namespace Tun

open EventMachine Memory

structure PacketBuffer where
  buf : ChunkBuffer2
  inputMtu : Nat
  /-- where the receive under way puts its packet -/
  receiving : Option Nat
  /-- the packet of the send under way -/
  sending : Option (Nat × Int)

namespace PacketBuffer

/-- `PacketRecvInterface_Receiver_Recv`, if there is space -/
def recv (buf : ChunkBuffer2) (inputMtu : Nat) : Option Nat :=
  if (inputMtu : Int) ≤ buf.inputAvail then buf.inputDest else none

/-- `PacketPassInterface_Sender_Send`, if there is data -/
def send (buf : ChunkBuffer2) : Option (Nat × Int) :=
  if 0 ≤ buf.outputAvail then buf.outputDest.map (fun d => (d, buf.outputAvail)) else none

/-- `PacketBuffer_Init`; `none` stands for its failure. -/
def init (buffer : Mem) (inputMtu numPackets : Nat) : Option PacketBuffer :=
  (ChunkBuffer2.calcBlocks inputMtu numPackets).map (fun blocks =>
    let buf := ChunkBuffer2.init buffer blocks inputMtu
    -- a receive is scheduled without a look at the space
    { buf := buf, inputMtu := inputMtu, receiving := buf.inputDest, sending := none })

def inputHandlerDone (s : PacketBuffer) (len : Nat) : PacketBuffer :=
  let wasEmpty := s.buf.outputAvail < 0
  let buf := s.buf.submitPacket len
  { s with
    buf := buf
    receiving := recv buf s.inputMtu
    sending := if wasEmpty then send buf else s.sending }

def outputHandlerDone (s : PacketBuffer) : PacketBuffer :=
  let wasFull := s.buf.inputAvail < s.inputMtu
  let buf := s.buf.consumePacket
  { s with
    buf := buf
    receiving := if wasFull then recv buf s.inputMtu else s.receiving
    sending := send buf }

theorem inputHandlerDone_buf (s : PacketBuffer) (len : Nat) :
    (s.inputHandlerDone len).buf = s.buf.submitPacket len := by
  simp only [inputHandlerDone]

theorem outputHandlerDone_buf (s : PacketBuffer) :
    s.outputHandlerDone.buf = s.buf.consumePacket := by
  simp only [outputHandlerDone]

end PacketBuffer

/-! ## The ends of the packets -/

namespace Ring

variable {r : Ring} {q : List (List UInt8)} {p : List UInt8}

/-- The first packet goes, but the last one ends where it did, and the space behind it is not less. -/
theorem Layout.endBlock_consume (h : r.Layout (p :: q)) (hfits : r.mtu + 1 ≤ r.size) :
    r.consume.endBlock = r.endBlock ∧ r.free ≤ r.consume.free := by
  have hfirst := h.first
  have hbounds := h.bounds hfits
  rw [Ring.consume, hfirst.1]
  generalize p :: q = l at h
  cases h with
  | straight hwrap hroom hq =>
      have hend := endBlock_straight hwrap hroom
      dsimp only
      rw [if_neg (by omega)]
      have hnext := @endBlock_straight
        { r with
          start := r.start + (1 + bdivideUp p.length blockSize)
          used := r.used - (1 + bdivideUp p.length blockSize) } hwrap (by dsimp only; omega)
      rw [hnext.1, hnext.2, hend.1, hend.2]
      dsimp only
      exact ⟨by omega, by omega⟩
  | wrapped hne hwrap htight hq₁ hq₂ hle hused =>
      rename_i q₁ q₂ e
      have hend := endBlock_wrapped hused
      dsimp only
      split
      · have hroom := (segment_bounds hq₁ hne).2
        rw [lim] at hroom
        have hnext := @endBlock_straight
          { r with
            start := 0, wrap := r.size
            used := r.used - (1 + bdivideUp p.length blockSize) } rfl (by dsimp only; omega)
        rw [hnext.1, hnext.2, hend.1, hend.2]
        dsimp only
        exact ⟨by omega, by omega⟩
      · have hnext := @endBlock_wrapped
          { r with
            start := r.start + (1 + bdivideUp p.length blockSize)
            used := r.used - (1 + bdivideUp p.length blockSize) } e (by dsimp only; omega)
        rw [hnext.1, hnext.2, hend.1, hend.2]
        dsimp only
        exact ⟨rfl, by omega⟩

end Ring

/-- A row of packets is not longer than its packets allow. -/
theorem Segment.end_le {m : Mem} {lim n : Nat} (l : List (List UInt8)) (hl : ∀ p ∈ l, p.length ≤ n) :
    ∀ {a b : Nat}, Segment m lim a l b → b ≤ a + l.length * (1 + bdivideUp n blockSize) := by
  induction l with
  | nil =>
      intro a b h
      have hab : a = b := h
      rw [List.length_nil, Nat.zero_mul, hab, Nat.add_zero]
  | cons p l ih =>
      intro a b h
      have hrest := ih (fun x hx => hl x (List.mem_cons_of_mem _ hx)) h.2.2.2
      have hp : bdivideUp p.length blockSize ≤ bdivideUp n blockSize :=
        bdivideUp_le_iff.2 (Nat.le_trans (hl p List.mem_cons_self) (le_blocks n))
      have hsum : (p :: l).length * (1 + bdivideUp n blockSize) =
          l.length * (1 + bdivideUp n blockSize) + (1 + bdivideUp n blockSize) := by
        rw [List.length_cons, Nat.succ_mul]
      omega

namespace ChunkBuffer2

variable {s : ChunkBuffer2} {q : List (List UInt8)}

theorem calcBlocks_eq {chunkLen num blocks : Nat} (h : calcBlocks chunkLen num = some blocks) :
    blocks = (1 + bdivideUp chunkLen blockSize) * (num + 1) := by
  unfold calcBlocks at h
  split at h
  · cases h
  · split at h
    · cases h
    · split at h
      · cases h
      · exact (Option.some.inj h).symm

/-- A buffer for `num` packets that holds fewer has space for another one. -/
theorem Holds.space (h : s.Holds q) {num n : Nat} (hmtu : s.mtu = bdivideUp n blockSize)
    (hsize : s.size = (1 + bdivideUp n blockSize) * (num + 1)) (hq : ∀ p ∈ q, p.length ≤ n)
    (hnum : q.length < num) : ∃ d, s.inputDest = some d ∧ (n : Int) ≤ s.inputAvail := by
  have hn := le_blocks n
  have hinput := h.input
  have hfree : (s.mtu : Int) < s.free ∧ ¬ s.Never := by
    rw [Ring.Never]
    cases h.layout with
    | straight hwrap hroom hseg =>
        have hend := Ring.endBlock_straight hwrap hroom
        omega
    | wrapped hne hwrap htight hq₁ hq₂ hle hused =>
        rename_i q₁ q₂ e
        have hend := Ring.endBlock_wrapped hused
        have hlim := (Ring.segment_bounds hq₁ hne).2
        rw [Ring.lim] at hlim
        have hlen₁ := Segment.end_le q₁ (fun p hp => hq p (List.mem_append_left _ hp)) hq₁
        have hlen₂ := Segment.end_le q₂ (fun p hp => hq p (List.mem_append_right _ hp)) hq₂
        rw [List.length_append] at hnum
        -- what the held packets take at most, and what is left of the array beside the gap at its end
        have hsum : q₁.length * (1 + bdivideUp n blockSize) + q₂.length * (1 + bdivideUp n blockSize) +
            2 * (1 + bdivideUp n blockSize) ≤ s.size := by
          calc
            q₁.length * (1 + bdivideUp n blockSize) + q₂.length * (1 + bdivideUp n blockSize) +
                2 * (1 + bdivideUp n blockSize)
                = (1 + bdivideUp n blockSize) * (q₁.length + q₂.length + 2) := by ring
            _ ≤ (1 + bdivideUp n blockSize) * (num + 1) := Nat.mul_le_mul_left _ (by omega)
            _ = s.size := hsize.symm
        omega
  rw [AssertInput, if_neg hfree.2, if_pos (by omega)] at hinput
  refine ⟨_, hinput.1, ?_⟩
  rw [hinput.2]
  simp only [blockSize] at *
  omega

end ChunkBuffer2

/-! ## The state of the component -/

namespace PacketBuffer

/-- The packets `q` are in the buffer, and what is under way is what the buffer has to offer. -/
structure Keeps (num : Nat) (s : PacketBuffer) (q : List (List UInt8)) : Prop where
  holds : s.buf.Holds q
  mtu : s.buf.mtu = bdivideUp s.inputMtu blockSize
  size : s.buf.size = (1 + bdivideUp s.inputMtu blockSize) * (num + 1)
  short : ∀ p ∈ q, p.length ≤ s.inputMtu
  receiving : s.receiving = recv s.buf s.inputMtu
  sending : s.sending = send s.buf

variable {s : PacketBuffer} {q : List (List UInt8)} {p : List UInt8} {num : Nat}

theorem send_eq_none {buf : ChunkBuffer2} (h : buf.Holds []) : send buf = none := by
  have hout : buf.outputDest = none ∧ buf.outputAvail = -1 := h.output
  rw [send, hout.2]
  rfl

theorem send_eq_some {buf : ChunkBuffer2} (h : buf.Holds (p :: q)) :
    send buf = some (blockSize * (buf.start + 1), (p.length : Int)) := by
  have hout : buf.outputDest = some (blockSize * (buf.start + 1)) ∧
      buf.outputAvail = p.length := h.output
  rw [send, if_pos (by omega), hout.1, hout.2]
  rfl

theorem keeps_init {buffer : Mem} {inputMtu : Nat} (hnum : 0 < num)
    (hinit : init buffer inputMtu num = some s)
    (hsmall : blockSize * s.buf.size ≤ 2147483647) : s.Keeps num [] := by
  rw [init, Option.map_eq_some_iff] at hinit
  rcases hinit with ⟨blocks, hblocks, rfl⟩
  have hsize := ChunkBuffer2.calcBlocks_eq hblocks
  have hring : (ChunkBuffer2.init buffer blocks inputMtu).size = blocks ∧
      (ChunkBuffer2.init buffer blocks inputMtu).mtu = bdivideUp inputMtu blockSize := by
    rw [ChunkBuffer2.init, ChunkBuffer2.updateOutput_toRing, ChunkBuffer2.updateInput_toRing]
    exact ⟨rfl, rfl⟩
  have hfit : bdivideUp inputMtu blockSize + 1 ≤ blocks := by
    rw [hsize]
    exact Nat.le_trans (Nat.le_of_eq (Nat.add_comm _ _)) (Nat.le_mul_of_pos_right _ (Nat.succ_pos _))
  have hholds := ChunkBuffer2.holds_init buffer hfit (hring.1 ▸ hsmall)
  have hspace := hholds.space hring.2 (hring.1.trans hsize) (by simp) hnum
  rcases hspace with ⟨d, hd, havail⟩
  refine ⟨hholds, hring.2, hring.1.trans hsize, by simp, ?_, ?_⟩
  · dsimp only
    rw [recv, if_pos havail]
  · exact (send_eq_none hholds).symm

/-- Where a packet of the largest size can be received, it can still be received after one was
consumed, at the same place. -/
theorem recv_consumePacket {buf : ChunkBuffer2} {inputMtu : Nat} (h : buf.Holds (p :: q))
    (hspace : (inputMtu : Int) ≤ buf.inputAvail) :
    recv buf.consumePacket inputMtu = recv buf inputMtu := by
  have hnext := (ChunkBuffer2.holds_consumePacket h).input
  have hkept := Ring.consume_kept buf.toRing
  have hend := h.layout.endBlock_consume h.fits
  have hdest : ∃ d, buf.inputDest = some d := by
    have hinput := h.input
    rw [ChunkBuffer2.AssertInput] at hinput
    split at hinput
    · omega
    · split at hinput
      · exact ⟨_, hinput.1⟩
      · omega
  rcases hdest with ⟨d, hd⟩
  have hroom := h.room hd
  have hnever : ¬ buf.toRing.consume.Never := by
    rw [Ring.Never, hend.1, hkept.1, hkept.2]
    omega
  rw [ChunkBuffer2.AssertInput, ChunkBuffer2.consumePacket_toRing, if_neg hnever, if_pos (by omega),
    hend.1] at hnext
  rw [recv, recv, if_pos hspace, if_pos, hnext.1, hd, hroom.1]
  rw [hnext.2]
  simp only [blockSize] at *
  omega

theorem keeps_inputHandlerDone (h : s.Keeps num q) {d len : Nat} (hd : s.receiving = some d)
    (hlen : len ≤ s.inputMtu) :
    (s.inputHandlerDone len).Keeps num (q ++ [read s.buf.buffer d len]) := by
  have hrecv := h.receiving.symm.trans hd
  rw [recv] at hrecv
  split at hrecv
  · rename_i hspace
    have hholds := ChunkBuffer2.holds_submitPacket h.holds hrecv
      (show (len : Int) ≤ s.buf.inputAvail by omega)
    have hkept := Ring.submit_kept s.buf.toRing len
    rw [← ChunkBuffer2.submitPacket_toRing] at hkept
    constructor
    · rw [inputHandlerDone_buf]
      exact hholds
    · rw [inputHandlerDone_buf, hkept.1]
      exact h.mtu
    · rw [inputHandlerDone_buf, hkept.2.1]
      exact h.size
    · intro p hp
      rcases List.mem_append.1 hp with hold | hnew
      · exact h.short p hold
      · rw [List.mem_singleton.1 hnew, length_read]
        exact hlen
    · simp only [inputHandlerDone]
    · rw [inputHandlerDone]
      dsimp only
      cases q with
      | nil =>
          have hempty : s.buf.outputAvail = -1 := h.holds.output.2
          rw [if_pos (by omega)]
      | cons p q =>
          -- the first packet is under way already
          have hout : s.buf.outputAvail = p.length := h.holds.output.2
          rw [if_neg (by omega), h.sending, send_eq_some h.holds, send_eq_some hholds, hkept.2.2.1]
  · cases hrecv

theorem keeps_outputHandlerDone (h : s.Keeps num (p :: q)) : s.outputHandlerDone.Keeps num q := by
  have hholds := ChunkBuffer2.holds_consumePacket h.holds
  have hkept := Ring.consume_kept s.buf.toRing
  rw [← ChunkBuffer2.consumePacket_toRing] at hkept
  constructor
  · rw [outputHandlerDone_buf]
    exact hholds
  · rw [outputHandlerDone_buf, hkept.1]
    exact h.mtu
  · rw [outputHandlerDone_buf, hkept.2]
    exact h.size
  · intro x hx
    exact h.short x (List.mem_cons_of_mem _ hx)
  · rw [outputHandlerDone]
    dsimp only
    split
    · rfl
    · rename_i hspace
      rw [h.receiving, recv_consumePacket h.holds (by omega)]
  · simp only [outputHandlerDone]

end PacketBuffer

/-! ## Runs -/

inductive FlowEvent where
  /-- the provider of the input writes, as long as a receive is under way -/
  | write (l : List UInt8)
  | received (len : Nat)
  | sent
  deriving DecidableEq, Repr

/-- The interfaces call their done handler once for each operation, with what fits the MTU. -/
def PacketBuffer.step (s : PacketBuffer) : FlowEvent → Option PacketBuffer
  | .write l =>
      s.receiving.bind (fun d =>
        if l.length ≤ s.inputMtu then
          some { s with buf := { s.buf with buffer := write s.buf.buffer d l } }
        else none)
  | .received len =>
      if s.receiving.isSome ∧ len ≤ s.inputMtu then some (s.inputHandlerDone len) else none
  | .sent => if s.sending.isSome then some s.outputHandlerDone else none

def packetBuffer (start : PacketBuffer) : Machine PacketBuffer FlowEvent where
  init := start
  step := PacketBuffer.step

/-- The packet that the input has delivered. -/
def received : PacketBuffer × FlowEvent → Option (List UInt8)
  | (s, .received len) => s.receiving.map (fun d => read s.buf.buffer d len)
  | _ => none

/-- The packet that the output has been given. -/
def sent : PacketBuffer × FlowEvent → Option (List UInt8)
  | (s, .sent) => s.sending.map (fun x => read s.buf.buffer x.1 x.2.toNat)
  | _ => none

theorem PacketBuffer.Keeps.sent_eq {s : PacketBuffer} {q : List (List UInt8)} {p : List UInt8}
    {num : Nat} (h : s.Keeps num (p :: q)) : sent (s, .sent) = some p := by
  rw [sent, h.sending, PacketBuffer.send_eq_some h.holds]
  exact congrArg some h.holds.layout.first.2.1

theorem packetBuffer_simulation {buffer : Mem} {inputMtu num : Nat} {start : PacketBuffer}
    (hnum : 0 < num) (hinit : PacketBuffer.init buffer inputMtu num = some start)
    (hsmall : blockSize * start.buf.size ≤ 2147483647) :
    Simulation (packetBuffer start) Queue.machine (fun _ _ => True)
      (fun s e => Queue.ops (received (s, e)) (sent (s, e))) (PacketBuffer.Keeps num) where
  init := PacketBuffer.keeps_init hnum hinit hsmall
  step := by
    intro s e s' q hq _ hst
    cases e with
    | write l =>
        simp only [packetBuffer, PacketBuffer.step, Option.bind_eq_some_iff,
          Option.ite_none_right_eq_some, Option.some.injEq] at hst
        rcases hst with ⟨d, hd, hl, rfl⟩
        have hrecv := hq.receiving.symm.trans hd
        rw [PacketBuffer.recv] at hrecv
        split at hrecv
        · rename_i hspace
          have hfill : s.buf.fill l = { s.buf with buffer := write s.buf.buffer d l } := by
            simp only [ChunkBuffer2.fill, hrecv]
          have hholds := ChunkBuffer2.holds_fill hq.holds
            (show (l.length : Int) ≤ s.buf.inputAvail by omega)
          rw [hfill] at hholds
          exact ⟨q, Steps.nil, hholds, hq.mtu, hq.size, hq.short, hq.receiving, hq.sending⟩
        · cases hrecv
    | received len =>
        simp only [packetBuffer, PacketBuffer.step, Option.ite_none_right_eq_some,
          Option.some.injEq] at hst
        rcases hst with ⟨⟨hsome, hlen⟩, rfl⟩
        rcases Option.isSome_iff_exists.1 hsome with ⟨d, hd⟩
        refine ⟨q ++ [read s.buf.buffer d len], ?_, PacketBuffer.keeps_inputHandlerDone hq hd hlen⟩
        simp only [received, sent, hd]
        exact Steps.single rfl
    | sent =>
        simp only [packetBuffer, PacketBuffer.step, Option.ite_none_right_eq_some,
          Option.some.injEq] at hst
        rcases hst with ⟨hsome, rfl⟩
        cases q with
        | nil =>
            rw [hq.sending, PacketBuffer.send_eq_none hq.holds] at hsome
            cases hsome
        | cons p q =>
            refine ⟨q, ?_, PacketBuffer.keeps_outputHandlerDone hq⟩
            rw [hq.sent_eq]
            exact Steps.single Queue.step_take

/-- What was sent is what was received, in its order, up to the packets `held`.  While there are any,
a send of the first one is under way, and while there are fewer than the component is made for, a
receive is.  Neither reaches beyond the array. -/
theorem packetBuffer_fifo {buffer : Mem} {inputMtu num : Nat} {start s : PacketBuffer}
    {h : List (PacketBuffer × FlowEvent)} (hnum : 0 < num)
    (hinit : PacketBuffer.init buffer inputMtu num = some start)
    (hsmall : blockSize * start.buf.size ≤ 2147483647) (hrun : Run (packetBuffer start) h s) :
    ∃ held, h.filterMap received = h.filterMap sent ++ held ∧ sent (s, .sent) = held.head? ∧
      (held.length < num → s.receiving.isSome) ∧
      ∀ d, s.receiving = some d → d + s.inputMtu ≤ blockSize * s.buf.size := by
  rcases Queue.Run.fifo (packetBuffer_simulation hnum hinit hsmall) hrun (fun _ _ => trivial) with
    ⟨held, hfifo, hkeeps⟩
  refine ⟨held, hfifo, ?_, ?_, ?_⟩
  · cases held with
    | nil =>
        rw [sent, hkeeps.sending, PacketBuffer.send_eq_none hkeeps.holds]
        rfl
    | cons p held => exact hkeeps.sent_eq
  · intro hfew
    rcases hkeeps.holds.space hkeeps.mtu hkeeps.size hkeeps.short hfew with ⟨d, hd, havail⟩
    rw [hkeeps.receiving, PacketBuffer.recv, if_pos havail, hd]
    rfl
  · intro d hd
    have hrecv := hkeeps.receiving.symm.trans hd
    rw [PacketBuffer.recv] at hrecv
    split at hrecv
    · have hin := hkeeps.holds.inBounds.input d hrecv
      omega
    · cases hrecv

/-- A component for one packet of at most eight octets. -/
def onePlace : PacketBuffer where
  buf := ChunkBuffer2.init (fun _ => 0) 6 8
  inputMtu := 8
  receiving := some 4
  sending := none

def onePacket : List FlowEvent :=
  [.write [1, 2, 3], .received 3, .sent, .write [4], .write [5, 6], .received 2]

theorem packetBuffer_fifo_onePlace :
    ∃ h s, (packetBuffer onePlace).play onePacket = some (h, s) ∧
      ∃ held, h.filterMap received = h.filterMap sent ++ held ∧ sent (s, .sent) = held.head? ∧
        (held.length < 1 → s.receiving.isSome) ∧
        ∀ d, s.receiving = some d → d + s.inputMtu ≤ blockSize * s.buf.size :=
  ⟨_, _, rfl, packetBuffer_fifo (Nat.succ_pos 0)
    (show PacketBuffer.init (fun _ => 0) 8 1 = some onePlace from rfl)
    (show blockSize * 6 ≤ 2147483647 by decide) (run_of_play (packetBuffer onePlace) onePacket rfl)⟩

end Tun
end SpinVpn
