import Geck.AccessFaults

/-!
# The kernel keeps what memory was promised

The guarantees of the memory module are about runs in which the kernel asks for
pages that are there, ends a process with the tables it was answered and names
no process twice. Seen from memory, a run of the kernel and the CPU is such a run.
-/

set_option autoImplicit false

namespace Geck.MemoryPromises
open Geck.LabelledRuns Geck.BlockStore Geck.SharedPcb Geck.MemoryState Geck.MemoryHandlers
open Geck.MemoryReplacement Geck.MemoryAccounting Geck.MemoryAllocation Geck.MemoryFaults
open Geck.MemorySystem Geck.CpuTranslation Geck.CpuExecution Geck.KernelState Geck.KernelThreads
open Geck.PcbTrail Geck.WholeMachine Geck.SoleCopy Geck.AccessFaults

def site (w : Machine) : Site := ⟨w.memory, w.live⟩

/-- What memory is asked in a step of the machine. -/
def siteRequests (w : Machine) : Action → List Request
  | .thread _ => []
  | .attendKernel => (w.system.toMemory.head?.map Request.kernel).toList
  | .attendCpu request => [.cpu request]
  | .processDispatch _ _ => []

section Steps
variable {cfg : KernelConfig} {mcfg : MemoryConfig} {w w' : Machine}

/-- The next request of the kernel is one that memory was promised. -/
theorem next_request_allowed (hw : Coherent cfg mcfg w) {request : KernelRequest}
    {rest : List KernelRequest} (hq : w.system.toMemory = request::rest)
    (hg : Resourced mcfg w .attendKernel) : AllowedKernel mcfg (site w) request := by
  have hmem : request ∈ w.system.toMemory := by simp [hq]
  simp only [Resourced, hq] at hg
  obtain ⟨held, hheld, ht⟩ := hw.tenants
  cases request with
  | initProcessStructuresMemory pcb =>
    refine ⟨?_, hg⟩
    by_contra hlive
    exact ht.fresh pcb (by simp [hq]) ((hheld _).mpr hlive)
  | requestPageFault pcb segment page =>
    have hasking : Asking cfg.cpu w.memory w.live w.faults pcb segment page :=
      hw.trail.toMemory _ hmem
    obtain ⟨hlive, f, -, hunanswered⟩ := hasking
    exact ⟨requestable_of_frame hw.accounts.holdings hlive hunanswered.frame, hg⟩
  | endStructures pcb =>
    have hsettled : Settled cfg.cpu w.memory w.live w.faults pcb := hw.trail.toMemory _ hmem
    exact hsettled.1

theorem act_site (hw : Coherent cfg mcfg w) {a : Action} (hg : Resourced mcfg w a)
    (h : act cfg mcfg w a = some w') :
    Guarded (siteStep mcfg) (Allowed mcfg) (site w) (siteRequests w a) ∧
      run (siteStep mcfg) (site w) (siteRequests w a) = some (site w') := by
  rcases act_cases h with ⟨e, t, rfl, -, -, rfl⟩ |
    ⟨request, rest, memory, answer, rfl, hq, hserved, rfl⟩ |
    ⟨request, memory, answer, rfl, hserved, rfl⟩ | ⟨value, times, t, rfl, -, rfl⟩
  · exact ⟨trivial, rfl⟩
  · have hallowed := next_request_allowed hw hq hg
    simp only [siteRequests, hq, List.head?_cons, Option.map_some, Option.toList_some]
    refine ⟨⟨hallowed, fun _ _ => trivial⟩, ?_⟩
    simp [run, siteStep, site, served, hserved]
  · refine ⟨⟨trivial, fun _ _ => trivial⟩, ?_⟩
    simp [siteRequests, run, siteStep, site, hserved]
  · exact ⟨trivial, rfl⟩

end Steps

/-- The requests that reach memory in a run of the machine are a run of the memory module that
keeps every promise, and memory is where that run leaves it. -/
theorem memory_promises_kept (cfg : KernelConfig) (mcfg : MemoryConfig) (valid : ValidConfig mcfg)
    (time : TimeVal) (ram swap : ℕ → UInt8) (actions : List Action)
    (hresourced : Guarded (act cfg mcfg) (Resourced mcfg) (start cfg mcfg time ram swap) actions)
    (w : Machine) (h : run (act cfg mcfg) (start cfg mcfg time ram swap) actions = some w) :
    Guarded (siteStep mcfg) (Allowed mcfg) (MemorySystem.boot mcfg ram swap)
      (collected (act cfg mcfg) siteRequests (start cfg mcfg time ram swap) actions) ∧
    run (siteStep mcfg) (MemorySystem.boot mcfg ram swap)
      (collected (act cfg mcfg) siteRequests (start cfg mcfg time ram swap) actions) =
      some ⟨w.memory, w.live⟩ :=
  guarded_projection (act cfg mcfg) (siteStep mcfg) site siteRequests (Coherent cfg mcfg)
    (Resourced mcfg) (Allowed mcfg)
    (fun _ _ _ hw hg hact => ⟨act_coherent valid hw hg hact, act_site hw hg hact⟩)
    actions _ w (start_coherent valid time ram swap) hresourced h

theorem memory_promises_kept_retrying :
    run (siteStep smallConfig) (MemorySystem.boot smallConfig zeros zeros)
      (collected (act (smallKernel .fifo) smallConfig) siteRequests
        (start (smallKernel .fifo) smallConfig midnight zeros zeros) faultingAccess) =
      some ⟨retrying.memory, retrying.live⟩ :=
  (memory_promises_kept (smallKernel .fifo) smallConfig small_config_valid midnight zeros zeros
    faultingAccess (by decide +kernel) retrying (run_reached _ _ _ (by decide +kernel))).2

end Geck.MemoryPromises
