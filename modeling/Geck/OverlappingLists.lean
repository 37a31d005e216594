import Geck.DispatchProtocol
import Geck.KernelOperations
import Geck.ProcessCensus

/-!
# Lists that two threads change at once

What one thread adds to a list is lost when another thread has read the list
before and writes it after. While no two operations on a list overlap, nothing
is: every process keeps its place, and the scheduler and the CPU their protocol.
-/

set_option autoImplicit false

namespace Geck.OverlappingLists
open Geck.LabelledRuns Geck.SplitOperations Geck.SharedPcb Geck.CpuTranslation Geck.CpuExecution
open Geck.CpuEffects Geck.KernelState Geck.KernelThreads Geck.KernelLedger Geck.KernelInvariant
open Geck.KernelSoundness Geck.ProcessCensus Geck.DispatchProtocol Geck.KernelOperations

/-- In every state of a run whose list operations do not overlap each process is in one place,
the degree of multiprogramming is respected and a degree token admits a process. -/
theorem processes_kept (cfg : KernelConfig) (time : TimeVal) (ms : List (Move Event))
    (hwhole : Guarded (splitStep cfg) (ListsWhole cfg) (splitBoot cfg time) ms) :
    Always (splitStep cfg) (fun c => Accounted cfg c.whole) (splitBoot cfg time) ms :=
  parted_always (kernel_lawful cfg) (fun _ _ _ hs h => step_sound hs h)
    (fun _ _ hs => accounted_of_sound hs) (boot_sound cfg time) ms hwhole

/-- A run of the kernel, each list operation in two moves with nothing between them. -/
def undividedMoves (cfg : KernelConfig) (es : List Event) : List (Move Event) :=
  collected (step cfg) (undivided (kernelOperations cfg)) (boot cfg midnight) es

def reachedSplit (cfg : KernelConfig) (ms : List (Move Event)) : SplitSystem :=
  reached (splitStep cfg) (splitBoot cfg midnight) ms

/-- The second console's thread begins to add to NEW where the first one has added. -/
def twoCreated : List (Move Event) :=
  undividedMoves (smallKernel .fifo) (.connect ["EXIT"] ["16"]::.connect ["EXIT"] ["16"]::
    [.receiveConsole 0, .receiveConsole 1, .receiveConsole 0])++[.begins (.receiveConsole 1)]

theorem processes_kept_two :
    Accounted (smallKernel .fifo) (reachedSplit (smallKernel .fifo) twoCreated).whole ∧
      (reachedSplit (smallKernel .fifo) twoCreated).whole.listNew.map Pcb.processId = [1] ∧
      (reachedSplit (smallKernel .fifo) twoCreated).begun.map Begun.component = [.new] :=
  ⟨always_last _ _ twoCreated _ (reachedSplit (smallKernel .fifo) twoCreated)
    (processes_kept (smallKernel .fifo) midnight twoCreated (by decide +kernel))
    (run_reached (splitStep (smallKernel .fifo)) _ twoCreated (by decide +kernel)),
    by decide +kernel, by decide +kernel⟩

/-- Both threads begin to add to NEW before either has added: the first process is nowhere. -/
def lostRun : List (Move Event) :=
  [.whole (.connect ["EXIT"] ["16"]), .whole (.connect ["EXIT"] ["16"]), .whole (.receiveConsole 0),
    .whole (.receiveConsole 1), .begins (.receiveConsole 0), .begins (.receiveConsole 1), .ends 0,
    .ends 0]

theorem overlap_loses_process :
    ¬Always (splitStep (smallKernel .fifo)) (fun c => Accounted (smallKernel .fifo) c.whole)
      (splitBoot (smallKernel .fifo) midnight) lostRun := by
  intro h
  have haccounted := always_last _ _ _ _ (reachedSplit (smallKernel .fifo) lostRun) h
    (run_reached (splitStep (smallKernel .fifo)) _ lostRun (by decide +kernel))
  obtain ⟨place, hplace, -⟩ := haccounted.place 1 (by decide +kernel)
  have hnowhere : ∀ place, countAt (reachedSplit (smallKernel .fifo) lostRun).whole 1 place = 0 := by
    intro place
    cases place <;> decide +kernel
  exact absurd (hplace.symm.trans (hnowhere place)) one_ne_zero

/-- The scheduler is about to remove from a queue, or has read it to remove from it. -/
def removing : ShortTermScheduler → Bool
  | .choose => true
  | .chooseFifo => true
  | _ => false

/-- The protocol between the kernel and the CPU, with the list operations in two moves. -/
structure SplitProtocol (cfg : KernelConfig) (c : SplitSystem) : Prop where
  protocol : Protocol cfg c.whole
  removes : ∀ o ∈ c.begun, o.event = .scheduleNextToRunning →
    removing c.whole.shortTermScheduler = true → o.seen ≠ .pcbs []
  proceeds : ∀ answers, 0 < turns c.whole → LegalTurn cfg c.whole answers →
    ∃ d, splitStep cfg c (.whole (.processDispatch answers)) = some d
  replies : ∀ ms d, 0 < turns c.whole → Guarded (splitStep cfg) (ListsWhole cfg) c ms →
    run (splitStep cfg) c ms = some d → turns c.whole ≤ ms.countP (isWhole isTurn) →
    c.whole.replies < d.whole.replies

section Protocols
variable {cfg : KernelConfig} {c : SplitSystem}

/-- The queue that the scheduler has read is the one it is about to remove from. -/
theorem removal_not_empty (hc : Intact (kernelOperations cfg) c) (hs : Dispatched cfg c.whole)
    {o : Begun Event KernelList Contents} (ho : o ∈ c.begun) (he : o.event = .scheduleNextToRunning)
    (hremoving : removing c.whole.shortTermScheduler = true) : o.seen ≠ .pcbs [] := by
  have hprotocol := protocol_of_dispatched hs
  have hwaiting : schedulerList cfg c.whole = some o.component := by
    have := hc.waiting o ho
    rwa [he] at this
  have hcurrent : o.seen = contents c.whole o.component := hc.current o ho
  rw [hcurrent]
  cases hthread : c.whole.shortTermScheduler with
  | choose =>
    have hready := hprotocol.choose hthread
    simp only [schedulerList, hthread] at hwaiting
    cases halg : cfg.algoritmoPlanificacion with
    | fifo | rr =>
      simp only [halg, Option.some.injEq] at hwaiting
      simp only [readyQueues, halg] at hready
      simpa [← hwaiting, contents] using hready
    | feedback =>
      simp only [halg] at hwaiting
      split at hwaiting
      · simp at hwaiting
      · rw [← Option.some.inj hwaiting]
        simpa [contents]
  | chooseFifo =>
    simp only [schedulerList, hthread, hprotocol.chooseFifo hthread, if_false, Option.some.injEq]
      at hwaiting
    simpa [← hwaiting, contents] using hprotocol.chooseFifo hthread
  | _ => simp [removing, hthread] at hremoving

/-- The CPU changes no list, so that no operation keeps it waiting. -/
theorem split_turn_proceeds (hc : Intact (kernelOperations cfg) c) (hs : Dispatched cfg c.whole)
    {answers : Answers} (hpos : 0 < turns c.whole) (hlegal : LegalTurn cfg c.whole answers) :
    ∃ d, splitStep cfg c (.whole (.processDispatch answers)) = some d := by
  obtain ⟨t, ht⟩ := turn_proceeds hs hpos hlegal
  have hfree : Free (kernelOperations cfg) c (.processDispatch answers) := by
    refine ⟨fun o ho hsame => ?_, fun k hk => absurd hk (by simp [kernelOperations, listLocked])⟩
    have hwaiting : listChanged cfg c.whole o.event = some o.component := hc.waiting o ho
    cases he : o.event <;> simp [kernelOperations, thread, he] at hsame
    simp [listChanged, he] at hwaiting
  have hnone : (listChanged cfg c.whole (.processDispatch answers)).isNone = true := rfl
  refine ⟨{ c with whole := t }, ?_⟩
  simp only [splitStep, move, hfree, true_and]
  exact (if_pos hnone).trans (by rw [show (kernelOperations cfg).step = step cfg from rfl, ht]; rfl)

theorem split_protocol (hc : Intact (kernelOperations cfg) c) (hs : Dispatched cfg c.whole) :
    SplitProtocol cfg c where
  protocol := protocol_of_dispatched hs
  removes := fun _ ho he hremoving => removal_not_empty hc hs ho he hremoving
  proceeds := fun _ hpos hlegal => split_turn_proceeds hc hs hpos hlegal
  replies := by
    intro ms d hpos hwhole hr hcount
    have hrun := (parted_run (kernel_lawful cfg) hc hwhole hr).2
    exact replies_within hs.sound hpos hrun (hcount.trans (count_completed isTurn hr))

end Protocols

/-- In every state of a run whose list operations do not overlap the CPU has at most one process,
each dispatch gets one package in order and in time, no condition of a process is left for the
next, and the scheduler finds a process where it removes one. -/
theorem one_reply_each_kept (cfg : KernelConfig) (hsort : Sorts cfg.cpu) (time : TimeVal)
    (ms : List (Move Event))
    (hwhole : Guarded (splitStep cfg) (ListsWhole cfg) (splitBoot cfg time) ms) :
    Always (splitStep cfg) (SplitProtocol cfg) (splitBoot cfg time) ms :=
  parted_always (kernel_lawful cfg) (fun _ _ _ hs h => step_dispatched hsort hs h)
    (fun _ hc hs => split_protocol hc hs) (boot_dispatched cfg time) ms hwhole

/-- A process is on the CPU, before its first instruction. -/
def onCpu : List (Move Event) :=
  undividedMoves (smallKernel .fifo) (admission 0 ["SET AX 1", "EXIT"]++dispatching .fifo++
    [.processDispatch faulting])

/-- Its two instructions are executed. -/
def executed : List (Move Event) := onCpu++List.replicate 2 (.whole (.processDispatch faulting))

/-- The end of its loop and the package that it leaves with. -/
def replied : SplitSystem :=
  reached (splitStep (smallKernel .fifo)) (reachedSplit (smallKernel .fifo) executed)
    (List.replicate 3 (.whole (.processDispatch faulting)))

theorem legal_first_turn :
    LegalTurn (smallKernel .fifo) (reachedSplit (smallKernel .fifo) onCpu).whole faulting := by
  intro dispatch pcb hthread _
  have hfetch : (executing (reachedSplit (smallKernel .fifo) onCpu).whole.cpuThread).map
      fetchNextInstructionToExecute = [some "SET AX 1"] := by decide +kernel
  rw [hthread] at hfetch
  have hline : fetchNextInstructionToExecute pcb = some "SET AX 1" := by
    simpa [executing] using hfetch
  have hsegment : movAddress (decode (smallKernel .fifo).cpu "SET AX 1") = none := by decide +kernel
  refine ⟨⟨_, hline, ⟨"SET", by decide +kernel, by decide +kernel⟩, fun a ha => ?_⟩,
    ⟨-1, Or.inr rfl⟩, ⟨7, rfl⟩⟩
  simp [hsegment] at ha

theorem one_reply_each_kept_small :
    (∃ d, splitStep (smallKernel .fifo) (reachedSplit (smallKernel .fifo) onCpu)
      (.whole (.processDispatch faulting)) = some d) ∧
    (reachedSplit (smallKernel .fifo) executed).whole.replies < replied.whole.replies := by
  have hfirst := always_last _ _ onCpu _ (reachedSplit (smallKernel .fifo) onCpu)
    (one_reply_each_kept (smallKernel .fifo) small_cpu_replaces.sorted midnight onCpu
      (by decide +kernel)) (run_reached (splitStep (smallKernel .fifo)) _ onCpu (by decide +kernel))
  have hlast := always_last _ _ executed _ (reachedSplit (smallKernel .fifo) executed)
    (one_reply_each_kept (smallKernel .fifo) small_cpu_replaces.sorted midnight executed
      (by decide +kernel)) (run_reached (splitStep (smallKernel .fifo)) _ executed (by decide +kernel))
  exact ⟨hfirst.proceeds faulting (by decide +kernel) legal_first_turn,
    hlast.replies _ replied (by decide +kernel) (by decide +kernel)
      (run_reached (splitStep (smallKernel .fifo)) _ _ (by decide +kernel)) (by decide +kernel)⟩

/-- A console's process asks for the screen, and its answer comes back while the process of
another console is removed from NEW. -/
def answering : List Event :=
  admission 0 ["I/O PANTALLA AX", "EXIT"]++dispatching .fifo++stopping++
    List.replicate 6 .manageDispatch++.console 0 0::.receiveConsole 0::
    .connect ["EXIT"] ["16"]::List.replicate 7 (.receiveConsole 1)++
    .memoria [⟨0, 0, 16⟩]::List.replicate 3 .manageMemory++List.replicate 2 (.receiveConsole 1)

/-- Both threads begin to add to READY before either has added, and both post the semaphore: the
second time the scheduler removes a process there is none. -/
def emptyRemoval : List (Move Event) :=
  undividedMoves (smallKernel .fifo) answering++
    [.begins (.receiveConsole 0), .begins (.receiveConsole 1), .ends 0, .ends 0,
      .whole (.receiveConsole 0), .whole (.receiveConsole 1), .whole .scheduleNextToRunning,
      .whole .scheduleNextToRunning, .begins .scheduleNextToRunning, .ends 0,
      .begins .scheduleNextToRunning, .ends 0, .whole .scheduleNextToRunning,
      .whole .scheduleNextToRunning]++
    List.replicate 5 (.whole (.processDispatch faulting))++List.replicate 2 (.whole .manageDispatch)++
    List.replicate 2 (.whole .scheduleNextToRunning)

theorem overlap_empties_ready :
    ¬Always (splitStep (smallKernel .fifo)) (SplitProtocol (smallKernel .fifo))
      (splitBoot (smallKernel .fifo) midnight) emptyRemoval := by
  intro h
  have hprotocol := always_last _ _ _ _ (reachedSplit (smallKernel .fifo) emptyRemoval) h
    (run_reached (splitStep (smallKernel .fifo)) _ emptyRemoval (by decide +kernel))
  exact hprotocol.protocol.choose (by decide +kernel) (by decide +kernel)

end Geck.OverlappingLists
