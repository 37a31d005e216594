import Geck.CpuConnection
import Geck.FlatMemory
import Geck.MemoryPromises
import Geck.SlotResidue

/-!
# What a running process loads and stores

The frame of a `MOV` comes from the TLB or from memory. Either way it is the
frame of the page of the process, so the word that is loaded is the word of the
flat memory of that process, and the word that is stored changes no other.
-/

set_option autoImplicit false

namespace Geck.MachineMemory
open Geck.LabelledRuns Geck.BlockStore Geck.SharedPcb Geck.MemoryState Geck.MemoryHandlers
open Geck.MemoryPaging Geck.MemoryReplacement Geck.MemoryAccounting Geck.MemoryAllocation
open Geck.MemoryFaults Geck.MemorySystem Geck.CpuTranslation Geck.CpuExecution Geck.CpuEffects
open Geck.CpuFlags Geck.KernelState Geck.KernelThreads Geck.KernelSoundness Geck.PcbTrail
open Geck.WholeMachine Geck.AccessFaults Geck.MemoryPromises Geck.FlatMemory Geck.PrivateComputer
open Geck.CpuConnection

/-- The module holds the bytes of `flat`. -/
def Backed (mcfg : MemoryConfig) (s : Site) (flat : Flat) : Prop := Linked mcfg ⟨s, none⟩ flat

section Accesses
variable {mcfg : MemoryConfig} {s : Site} {flat : Flat} {pcb : Pcb} {segment page frame : ℤ}
  {offset : ℕ}

theorem linked_forget {answered : Option FlatMemory.Answered}
    (h : Linked mcfg ⟨s, answered⟩ flat) : Backed mcfg s flat :=
  ⟨h.accounts, h.synced, h.bytes, by simp⟩

/-- A frame that memory would answer can be used as one it has answered. -/
theorem backed_answered (hb : Backed mcfg s flat)
    (hlive : s.live pcb.processId = some pcb.segmentTable)
    (hframe : getFrameNumberRAM s.memory pcb page segment = some frame) (hne : frame ≠ -1) :
    Linked mcfg ⟨s, some ⟨pcb.processId, segment, page, frame⟩⟩ flat ∧ InFrames mcfg frame := by
  have hold := hb.accounts.holdings
  have hnumber := hframe
  rw [frame_number hold hlive, Option.map_eq_some_iff] at hnumber
  obtain ⟨x, hx, hshown⟩ := hnumber
  obtain ⟨v, hv, hrow⟩ := Option.bind_eq_some_iff.mp hx
  have hpresent : x.presence = true := by
    by_contra habsent
    simp only [shownFrame, habsent, if_false] at hshown
    exact hne hshown.symm
  have hsame : x.frameNumber = frame := by simpa [shownFrame, hpresent] using hshown
  have hrange := marked_range (hold.frameMarked _ v x ⟨requested_owned hlive hv, hrow⟩ hpresent)
  rw [hold.memoryLength, hsame] at hrange
  refine ⟨⟨hb.accounts, hb.synced, hb.bytes, fun a ha => ?_⟩, hrange⟩
  obtain rfl := Option.some.inj ha
  exact ⟨pcb.segmentTable, v, x, hlive, hv, hrow, hpresent, hsame⟩

theorem backed_load (hb : Backed mcfg s flat)
    (hlive : s.live pcb.processId = some pcb.segmentTable)
    (hframe : getFrameNumberRAM s.memory pcb page segment = some frame) (hne : frame ≠ -1)
    (hinside : offset+4 ≤ mcfg.tamPagina) {m : Memory} {answer : CpuResponse}
    (h : attendCpu mcfg s.memory (.movIn (frame*mcfg.tamPagina+offset) pcb segment page) =
      some (m, answer)) :
    answer = .movInOk (loadWord (flat pcb.processId segment page) offset) ∧
      Backed mcfg ⟨m, s.live⟩ flat := by
  obtain ⟨hl, -⟩ := backed_answered hb hlive hframe hne
  obtain ⟨t, value, hserve, hbytes, hlt⟩ := linked_mov_in hl pcb segment page offset
    ⟨hlive, hinside, by simp⟩
  simp only [serve, h, Option.bind_eq_bind, Option.bind_some] at hserve
  cases answer with
  | movInOk loaded =>
    simp only [Option.some.injEq, Prod.mk.injEq] at hserve
    obtain ⟨rfl, rfl⟩ := hserve
    refine ⟨?_, linked_forget hlt⟩
    have hword : loaded = loadWord (flat pcb.processId segment page) offset :=
      SlotResidue.word_ext fun k => by rw [hbytes, word_byte_load]
    rw [hword]
  | _ => simp at hserve

theorem backed_store (hb : Backed mcfg s flat)
    (hlive : s.live pcb.processId = some pcb.segmentTable)
    (hframe : getFrameNumberRAM s.memory pcb page segment = some frame) (hne : frame ≠ -1)
    (hinside : offset+4 ≤ mcfg.tamPagina) {row : Segment} {value : UInt32} {m : Memory}
    {answer : CpuResponse} (hrow : listGet pcb.segmentTable segment = some row)
    (h : attendCpu mcfg s.memory (.movOut (frame*mcfg.tamPagina+offset) value row.indexPage
      pcb.processId) = some (m, answer)) :
    Backed mcfg ⟨m, s.live⟩
      (flatServe mcfg ⟨m, s.live⟩ flat (.movOut pcb segment page offset value)).1 := by
  obtain ⟨hl, -⟩ := backed_answered hb hlive hframe hne
  obtain ⟨t, hserve, hlt⟩ := linked_mov_out hl pcb segment page offset value
    ⟨hlive, hinside, by simp⟩
  simp only [serve, hrow, h, Option.bind_eq_bind, Option.bind_some, Option.some.injEq,
    Prod.mk.injEq] at hserve
  obtain ⟨rfl, -⟩ := hserve
  exact linked_forget hlt

end Accesses

section Kernel
variable {cfg : KernelConfig} {mcfg : MemoryConfig} {w : Machine} {flat : Flat}

/-- Memory's turn for the kernel fills the pages of a new process and moves those of the others. -/
theorem backed_served (valid : ValidConfig mcfg) (hw : Coherent cfg mcfg w)
    (hb : Backed mcfg (site w) flat) {request : KernelRequest} {rest : List KernelRequest}
    {memory : Memory} {answer : Option KernelResponse} (hq : w.system.toMemory = request::rest)
    (hg : Resourced mcfg w .attendKernel)
    (h : attendKernel mcfg w.memory request = some (memory, answer)) :
    Backed mcfg (site (served mcfg w request rest memory answer))
      (flatServe mcfg (site (served mcfg w request rest memory answer)) flat (.kernel request)).1 := by
  obtain ⟨t, value, hserve, -, hlt⟩ := linked_step valid hb (.kernel request)
    (next_request_allowed hw hq hg)
  have hmemory : attendKernel mcfg (site w).memory request = some (memory, answer) := h
  simp only [serve, hmemory, Option.bind_eq_bind, Option.bind_some, Option.some.injEq,
    Prod.mk.injEq] at hserve
  obtain ⟨rfl, -⟩ := hserve
  exact linked_forget hlt

end Kernel

section Turns
variable {cfg : KernelConfig} {mcfg : MemoryConfig} {c : Connected} {dispatch : Dispatch}
  {pcb : Pcb} {value : CpuResponse} {times : Readings} {line : String} {a : ℤ}
  {params : LogicalAddressParameters} {address : ℤ} {tlb : List RowTlb}

/-- A frame that memory answers to the next instruction is the frame of its page. -/
theorem frame_answer_response {cpu : CpuConfig} {m : Memory} {segment page frame : ℤ}
    (hnext : nextPage cpu pcb = some (segment, page))
    (h : frameAnswer cpu mcfg m pcb = .frameResponse frame) :
    getFrameNumberRAM m pcb page segment = some frame ∧ frame ≠ -1 := by
  simp only [frameAnswer, hnext, attendCpu, Option.bind_eq_bind] at h
  cases hframe : getFrameNumberRAM m pcb page segment with
  | none => simp [hframe] at h
  | some found =>
    by_cases hnone : found = -1
    · simp [hframe, hnone] at h
    · simp only [hframe, Option.bind_some, if_neg hnone, CpuResponse.frameResponse.injEq] at h
      exact ⟨by rw [h], h ▸ hnone⟩

/-- The address of a `MOV` that does not fault is in the frame that memory has for its page. -/
theorem built_frame (hthread : c.machine.system.cpuThread = .running dispatch pcb)
    (hg : Sheltered cfg mcfg c (.processDispatch times))
    (hline : fetchNextInstructionToExecute pcb = some line)
    (hmov : movAddress (decode cfg.cpu line) = some a)
    (ht : translateLogicalAddress cfg.cpu a pcb = some (params, false))
    (h : buildPhysicalAddress cfg.cpu c.machine.system.cpu.tlb
      (some (executionAnswers cfg mcfg c.machine value times).frame) times params pcb =
        some (address, tlb, false)) :
    (0 ≤ params.pageOffset ∧ params.pageOffset+4 ≤ cfg.cpu.tamPagina) ∧ ∃ frame,
      getFrameNumberRAM c.machine.memory pcb params.pageNum params.segmentNumber = some frame ∧
        frame ≠ -1 ∧ address = frame*cfg.cpu.tamPagina+params.pageOffset := by
  have hnextMov : nextMov cfg.cpu pcb = some params := by simp [nextMov, hline, hmov, ht]
  have hnextPage : nextPage cfg.cpu pcb = some (params.segmentNumber, params.pageNum) := by
    simp [nextPage, hline, hmov, ht]
  obtain ⟨hinside, htlb⟩ := hg pcb (by simp [runningPcb, hthread]) params hnextMov
  refine ⟨hinside, ?_⟩
  simp only [buildPhysicalAddress, Option.bind_eq_bind, Option.bind_eq_some_iff] at h
  obtain ⟨⟨found, visited⟩, hfound, h⟩ := h
  by_cases hmiss : found = -1
  · simp only [if_pos hmiss, Option.bind_eq_some_iff, Option.some.injEq] at h
    obtain ⟨response, rfl, ⟨frame, fault⟩, hfind, h⟩ := h
    have hanswer : (executionAnswers cfg mcfg c.machine value times).frame =
        frameAnswer cfg.cpu mcfg c.machine.memory pcb := by
      simp [executionAnswers, runningPcb, hthread]
    have hfault : fault = false := by
      split at h <;> simp only [Option.some.injEq, Prod.mk.injEq] at h <;> exact h.2.2
    have hresponse : frameAnswer cfg.cpu mcfg c.machine.memory pcb = .frameResponse frame := by
      rw [hanswer, hfault] at hfind
      cases hr : frameAnswer cfg.cpu mcfg c.machine.memory pcb <;> simp_all [findFrame]
    obtain ⟨hframe, hne⟩ := frame_answer_response hnextPage hresponse
    simp only [ne_eq, hne, not_false_eq_true, if_true, Option.some.injEq, Prod.mk.injEq] at h
    exact ⟨frame, hframe, hne, h.1.symm⟩
  · simp only [if_neg hmiss, Option.some.injEq, Prod.mk.injEq] at h
    exact ⟨found, (htlb (found, visited) hfound).resolve_left hmiss, hmiss, h.1.symm⟩

theorem turn_addresses {flat : Flat} (hw : Coherent cfg mcfg c.machine)
    (hb : Backed mcfg (site c.machine) flat)
    (hthread : c.machine.system.cpuThread = .running dispatch pcb)
    (hg : Sheltered cfg mcfg c (.processDispatch times))
    (hline : fetchNextInstructionToExecute pcb = some line) :
    Addresses cfg.cpu (executionAnswers cfg mcfg c.machine value times) c.machine.system.cpu pcb
      (decode cfg.cpu line) := by
  intro a params tlb hmov ht hbuilt
  obtain ⟨⟨hoffset, -⟩, frame, hframe, hne, haddress⟩ :=
    built_frame hthread hg hline hmov ht hbuilt
  have hlow := (backed_answered hb (running_live hw hthread) hframe hne).2.1
  have : 0 ≤ frame*cfg.cpu.tamPagina := by positivity
  omega

theorem answers_without_frame (f : ℤ)
    (h : (executionAnswers cfg mcfg c.machine value times).frame = .pageFault f) : f = -1 := by
  simp only [executionAnswers] at h
  cases hpcb : runningPcb c.machine.system.cpuThread with
  | none => simp [hpcb] at h
  | some p =>
    simp only [hpcb, Option.map_some, Option.getD_some, frameAnswer] at h
    cases hpage : nextPage cfg.cpu p with
    | none => simp [hpage] at h
    | some next =>
      obtain ⟨segment, page⟩ := next
      simp only [hpage] at h
      cases hserved : attendCpu mcfg c.machine.memory (.frameRequest p page segment) with
      | none => simp [hserved] at h
      | some served =>
        obtain ⟨m, answer⟩ := served
        simp only [hserved] at h
        subst h
        exact InstructionSet.attend_cpu_faults_without_frame mcfg _ m _ f hserved

/-- What a turn does to its process and to memory: it faults and both are as they were, or
it has the effect of the instruction on the memory of the process. -/
inductive Computed (cfg : KernelConfig) (mcfg : MemoryConfig) (c c' : Connected) (pcb : Pcb)
    (flat : Flat) (cpu : Cpu) : Prop
  | faults (fault : cpu.pageFault = true)
      (registers : cpu.registers = c.machine.system.cpu.registers)
      (backed : Backed mcfg (site c'.machine) flat)
  | completes (line : String) (eff : Effect) (fault : cpu.pageFault = false)
      (fetched : fetchNextInstructionToExecute pcb = some line)
      (done : effect cfg.cpu (recalled (flat pcb.processId)) c.machine.system.cpu.registers pcb
        (decode cfg.cpu line) = some eff)
      (registers : cpu.registers = eff.registers)
      (backed : Backed mcfg (site c'.machine) (Function.update flat pcb.processId
        (afterAccess (flat pcb.processId) eff.access)))

/-- The store of the flat memory is the store of the memory of the process. -/
theorem flat_store (s : Site) (flat : Flat) (offset : ℤ) (value : UInt32)
    (hoffset : params.pageOffset = offset) :
    (flatServe mcfg s flat (.movOut pcb params.segmentNumber params.pageNum offset.toNat value)).1 =
      Function.update flat pcb.processId
        (afterAccess (flat pcb.processId) (some (.store params value))) := by
  subst hoffset
  funext p segment page
  by_cases hp : p = pcb.processId
  · subst hp
    simp [flatServe, afterAccess]
  · simp [flatServe, hp]

theorem turn_computes (hpage : cfg.cpu.tamPagina = mcfg.tamPagina)
    {c' : Connected} {flat : Flat} (hw : Coherent cfg mcfg c.machine) (hc : Asked cfg.cpu mcfg c)
    (hb : Backed mcfg (site c.machine) flat) (hg : Sheltered cfg mcfg c (.processDispatch times))
    (hthread : c.machine.system.cpuThread = .running dispatch pcb)
    (hkeep : keepsRunning c.machine.system.cpu = true)
    (h : connectedStep cfg mcfg c (.processDispatch times) = some c') :
    ∃ cpu, c'.machine.system = { c.machine.system with
        cpu := cpu
        cpuThread := .running dispatch (if cpu.pageFault then pcb else updateProgramCounter pcb) } ∧
      c'.machine.live = c.machine.live ∧ Computed cfg mcfg c c' pcb flat cpu := by
  obtain ⟨value, t, memory, hgiven, -, rfl, hserved⟩ := turn_acts hc h
  obtain ⟨d, p, cpu, made, hrunning, -, hcycle, rfl⟩ :=
    turn_cases (by simp [executes, hthread, hkeep]) hgiven
  obtain ⟨rfl, rfl⟩ : dispatch = d ∧ pcb = p := by
    simpa [hthread] using hrunning
  have hrequest := next_request_made hthread hkeep hcycle
  have hlive := running_live hw hthread
  have hclear := clear_of_running hkeep
  have hexecuted := given_cycle hc hthread hcycle
  simp only [instructionCycle, Option.bind_eq_bind, Option.bind_eq_some_iff] at hexecuted
  obtain ⟨line, hline, ⟨cpu', made'⟩, hexec, heq⟩ := hexecuted
  simp only [Option.some.injEq, Prod.mk.injEq] at heq
  obtain ⟨rfl, -, rfl⟩ := heq
  refine ⟨cpu', rfl, rfl, ?_⟩
  cases hfault : cpu'.pageFault with
  | true =>
    obtain ⟨hregisters, rfl, -⟩ :=
      InstructionSet.execute_instruction_fault answers_without_frame hclear.2 hexec hfault
    obtain ⟨-, rfl⟩ | ⟨request, hsome, -⟩ := hserved
    · exact .faults hfault hregisters hb
    · simp [hrequest] at hsome
  | false =>
    have haddresses : Addresses cfg.cpu (executionAnswers cfg mcfg c.machine value times)
        c.machine.system.cpu pcb (decode cfg.cpu line) := turn_addresses hw hb hthread hg hline
    have heffect (hload : ∀ params address loaded,
        made' = some (.load params address loaded) → loaded = recalled (flat pcb.processId) params) :
        ∃ eff, effect cfg.cpu (recalled (flat pcb.processId)) c.machine.system.cpu.registers pcb
            (decode cfg.cpu line) = some eff ∧ cpu'.registers = eff.registers ∧
          made'.map logicalAccess = eff.access :=
      instruction_effect hclear.1.2.2 haddresses hload hfault hexec
    cases made' with
    | none =>
      obtain ⟨-, rfl⟩ | ⟨request, hsome, -⟩ := hserved
      · obtain ⟨eff, hdone, hregisters, hnone⟩ := heffect (by simp)
        refine .completes line eff hfault hline hdone hregisters ?_
        rw [← hnone, Option.map_none, after_no_access, Function.update_eq_self]
        exact hb
      · simp [hrequest] at hsome
    | some access =>
      obtain ⟨a, params, address, tlb, hmov, ht, hbuilt, hmade⟩ :=
        instruction_access hclear.1.2.2 haddresses hfault hexec
      obtain ⟨⟨hlow, hinside⟩, frame, hframe, hne, haddress⟩ :=
        built_frame hthread hg hline hmov ht hbuilt
      have hoffset : params.pageOffset.toNat+4 ≤ mcfg.tamPagina := by omega
      have hat : address = frame*mcfg.tamPagina+params.pageOffset.toNat := by
        rw [haddress, hpage, Int.toNat_of_nonneg hlow]
      obtain ⟨loaded, rfl, hvalue⟩ | ⟨stored, row, rfl, hrow⟩ := hmade
      · obtain ⟨hnone, -⟩ | ⟨request, hsome, hserved⟩ := hserved
        · simp [hrequest, accessRequest] at hnone
        · obtain rfl : CpuRequest.movIn address pcb params.segmentNumber params.pageNum = request := by
            simpa [hrequest, accessRequest] using hsome
          rw [hat] at hserved
          obtain ⟨hword, hbacked⟩ := backed_load hb hlive hframe hne hoffset hserved
          have hloaded : loaded = recalled (flat pcb.processId) params := by
            have : CpuResponse.movInOk loaded = _ := hvalue.symm.trans hword
            simpa [recalled] using this
          obtain ⟨eff, hdone, hregisters, hmade⟩ := heffect fun _ _ _ heq => by
            simp only [Option.some.injEq, Access.load.injEq] at heq
            rw [← heq.1, ← heq.2.2, hloaded]
          refine .completes line eff hfault hline hdone hregisters ?_
          rw [← hmade, Option.map_some, logicalAccess, after_load, Function.update_eq_self]
          exact hbacked
      · obtain ⟨hnone, -⟩ | ⟨request, hsome, hserved⟩ := hserved
        · simp [hrequest, accessRequest, hrow] at hnone
        · obtain rfl : CpuRequest.movOut address stored row.indexPage pcb.processId = request := by
            simpa [hrequest, accessRequest, hrow] using hsome
          rw [hat] at hserved
          have hbacked := backed_store hb hlive hframe hne hoffset hrow hserved
          obtain ⟨eff, hdone, hregisters, hmade⟩ := heffect (by simp)
          refine .completes line eff hfault hline hdone hregisters ?_
          rw [← hmade]
          rw [flat_store _ _ _ _ rfl] at hbacked
          exact hbacked

end Turns

end Geck.MachineMemory
