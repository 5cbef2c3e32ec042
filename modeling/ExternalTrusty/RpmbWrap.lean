import ExternalTrusty.RpmbRequest
import ExternalTrusty.ErrorWord

namespace ExternalTrusty

open CMemory

/-- Handling the request calls the RPMB device. -/
def CallsRpmb (target : Target) (w : World Script) (reqLen : Nat) : Prop :=
  ∃ rc w' es, proxyHandleRpmb target scriptTransport scriptRpmb .proxy reqMsg reqBuf reqLen w =
    some (rc, w') ∧ w'.env.trace = w.env.trace ++ es ∧
      ∃ reliable write read, Effect.rpmb reliable write read ∈ es

theorem not_callsRpmb_of_errResponse {target : Target} {w : World Script} {reqLen result : Nat}
    (h : proxyHandleRpmb target scriptTransport scriptRpmb .proxy reqMsg reqBuf reqLen w =
      errResponse scriptTransport .proxy reqMsg result w) : ¬CallsRpmb target w reqLen := by
  rintro ⟨rc, w', es, run, trace, reliable, write, read, mem⟩
  rw [h] at run
  have sent : w'.env.trace = w.env.trace ++ [.sent .proxy _] :=
    (congrArg (fun x : Int × World Script => x.2.env.trace) (Option.some.inj run)).symm
  rw [trace] at sent
  rw [List.append_cancel_left sent] at mem
  cases List.mem_singleton.mp mem

theorem callsRpmb_of_execute {target : Target} {w : World Script} {reqLen : Nat} {msg r : Ptr Obj}
    {rel wr : Option (Ptr Obj)} {relSize wrSize readSize : Nat}
    (h : proxyHandleRpmb target scriptTransport scriptRpmb .proxy reqMsg reqBuf reqLen w =
      proxyExecute scriptTransport scriptRpmb .proxy msg r rel relSize wr wrSize readSize w) :
    CallsRpmb target w reqLen := by
  unfold CallsRpmb
  rw [h, proxyExecute]
  by_cases failed : (scriptRpmb.storageSend rel relSize wr wrSize readBuf readSize w).1 = 0
  · simp only [if_neg (not_not_intro failed)]
    exact ⟨_, _, _, rfl, List.append_assoc .., _, _, _, List.mem_cons_self⟩
  · simp only [if_pos failed]
    exact ⟨_, _, _, rfl, List.append_assoc .., _, _, _, List.mem_cons_self⟩

/-- The device is called exactly when the checks pass. -/
theorem callsRpmb_iff (target : Target) (w : World Script) (reqLen : Nat) :
    CallsRpmb target w reqLen ↔ RpmbPasses target reqLen (w.mem.load reqBuf 4)
      (w.mem.load (reqBuf.add 4) 4) (w.mem.load (reqBuf.add 8) 4) := by
  by_cases passes : RpmbPasses target reqLen (w.mem.load reqBuf 4) (w.mem.load (reqBuf.add 4) 4)
      (w.mem.load (reqBuf.add 8) 4)
  · refine iff_of_true ?_ passes
    exact callsRpmb_of_execute (proxyHandleRpmb_passes passes)
  · refine iff_of_false ?_ passes
    exact not_callsRpmb_of_errResponse (proxyHandleRpmb_fails passes)

/-- The sizes of this request add up to its length only modulo 2^32. -/
structure RpmbWraps (p : List UInt8) : Prop where
  long : 16 ≤ p.length
  sum : 16 + rpmbReliableSize p + rpmbWriteSize p = 2 ^ 32 + p.length
  reliableBlocks : rpmbReliableSize p % 512 = 0
  writeBlocks : rpmbWriteSize p % 512 = 0
  readBlocks : rpmbReadSize p % 512 = 0
  readFits : rpmbReadSize p ≤ 4096

/-- The device is called only for sizes that add up, and by no more than what was received. -/
structure RpmbContained (w : World Script) (p : List UInt8) : Prop where
  sum : CallsRpmb .bits32 w p.length →
    16 + w.mem.load reqBuf 4 + w.mem.load (reqBuf.add 4) 4 = p.length
  received : ∀ w₂ : World Script, w₂.mem.read reqBuf p.length = p →
    (CallsRpmb .bits32 w p.length ↔ CallsRpmb .bits32 w₂ p.length)

theorem callsRpmb_received {w : World Script} {p : List UInt8}
    (h : w.mem.read reqBuf p.length = p) :
    CallsRpmb .bits32 w p.length ↔
      RpmbPasses .bits32 p.length (rpmbReliableSize p) (rpmbWriteSize p) (rpmbReadSize p) := by
  rw [callsRpmb_iff, rpmbPasses_received h]

/-- On the 32-bit target all requests are contained but those whose sizes wrap around. -/
theorem rpmbContained_iff {w : World Script} {p : List UInt8}
    (held : w.mem.read reqBuf p.length = p) (room : p.length ≤ sizeofReqBuf) :
    RpmbContained w p ↔ ¬RpmbWraps p := by
  unfold sizeofReqBuf at room
  constructor
  · intro contained wraps
    have total := wraps.sum
    have calls : CallsRpmb .bits32 w p.length := by
      refine (callsRpmb_received held).mpr ⟨?_, ?_, wraps.reliableBlocks,
        wraps.writeBlocks, wraps.readBlocks, wraps.readFits⟩
      · have long := wraps.long
        rw [Target.sizeofPtr_bits32]
        omega
      · rw [Target.size_bits32, Target.size_bits32]
        omega
    obtain ⟨rel, wr, _⟩ := rpmbSizes_read held wraps.long
    have exact := contained.sum calls
    rw [rel, wr] at exact
    omega
  · intro unwrapped
    refine ⟨fun calls => ?_, fun w₂ held₂ => ?_⟩
    · have passes := (callsRpmb_received held).mp calls
      have long := passes.header
      obtain ⟨rel, wr, _⟩ := rpmbSizes_read held long
      have bounds : rpmbReliableSize p < 256 ^ 4 ∧ rpmbWriteSize p < 256 ^ 4 := by
        rw [← rel, ← wr]
        exact ⟨Mem.load_lt _ _ _, Mem.load_lt _ _ _⟩
      rw [rel, wr]
      have sum := passes.sum
      rw [Target.size_bits32, Target.size_bits32] at sum
      by_contra differs
      have carried : 16 + rpmbReliableSize p + rpmbWriteSize p = 2 ^ 32 + p.length := by
        have blocks := passes.reliableBlocks
        have blocks' := passes.writeBlocks
        omega
      exact unwrapped ⟨long, carried, passes.reliableBlocks, passes.writeBlocks,
        passes.readBlocks, passes.readFits⟩
    · rw [callsRpmb_received held, callsRpmb_received held₂]

/-- A header that asks to write two times 2 GiB, and nothing else. -/
def wrappedRequest : List UInt8 :=
  [0, 0, 0, 0x80, 0, 0, 0, 0x80, 0, 0, 0, 0, 0, 0, 0, 0]

/-- A header that asks for nothing. -/
def idleRequest : List UInt8 := List.replicate 16 0

/-- A world whose request buffer begins with this request. -/
def requestWorld (p : List UInt8) : World Script where
  mem := ⟨fun b i => if b = .reqBuf then p.getD i 0 else 0, []⟩
  chans := fun _ => ⟨1, 0, .proxy⟩
  initialized := fun _ => true
  env := ⟨[], [], [], [], []⟩

theorem requestWorld_held (p : List UInt8) :
    (requestWorld p).mem.read reqBuf p.length = p := read_reqBuf fun _ => rfl

theorem wrappedRequest_accepted :
    CallsRpmb .bits32 (requestWorld wrappedRequest) 16 ∧
      (requestWorld wrappedRequest).mem.load reqBuf 4 = 2 ^ 31 ∧
      (requestWorld wrappedRequest).mem.load (reqBuf.add 4) 4 = 2 ^ 31 ∧
      ¬RpmbContained (requestWorld wrappedRequest) wrappedRequest := by
  have calls : CallsRpmb .bits32 (requestWorld wrappedRequest) 16 :=
    (callsRpmb_received (requestWorld_held wrappedRequest)).mpr
      ⟨by decide, by decide, by decide, by decide, by decide, by decide⟩
  refine ⟨calls, by decide, by decide, fun contained => ?_⟩
  exact absurd (contained.sum calls) (by decide)

theorem idleRequest_contained : RpmbContained (requestWorld idleRequest) idleRequest :=
  (rpmbContained_iff (requestWorld_held idleRequest) (by decide)).mpr
    fun wraps => absurd wraps.sum (by decide)

end ExternalTrusty
