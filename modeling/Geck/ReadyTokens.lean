import Geck.KernelSoundness

/-!
# Every process in a ready queue has a token

All paths that put a process in READY post `sem_process_in_ready` but one: the
answer to a page fault under FEEDBACK. A run has no other way to lose a token.
-/

set_option autoImplicit false

namespace Geck.ReadyTokens
open Geck.LabelledRuns Geck.CpuTranslation Geck.KernelState Geck.KernelThreads Geck.KernelLedger
open Geck.KernelLaws Geck.KernelInvariant Geck.KernelSoundness

/-- The PCBs in the ready queues are the value of `sem_process_in_ready`, the token
the short-term scheduler holds and the posts that threads still owe. -/
def TokensMatch (cfg : KernelConfig) (s : System) : Prop :=
  ((readyQueues cfg s).length : ℤ) = s.semProcessInReady+taken s.shortTermScheduler+owed s

instance (cfg : KernelConfig) (s : System) : Decidable (TokensMatch cfg s) :=
  inferInstanceAs (Decidable (_ = _))

theorem tokens_match_iff (cfg : KernelConfig) (s : System) :
    TokensMatch cfg s ↔ stranded cfg s = 0 := by
  unfold TokensMatch stranded
  omega

theorem step_tokens {cfg : KernelConfig} {s t : System} {e : Event} (hs : Sound cfg s)
    (hmatch : TokensMatch cfg s) (h : step cfg s e = some t) :
    TokensMatch cfg t ↔ Posts cfg s e := by
  rw [tokens_match_iff] at hmatch ⊢
  rcases step_keeps hs h with ⟨hposts, hkeeps⟩ | ⟨hposts, hkeeps⟩
  · have := hkeeps.stranded
    constructor
    · exact fun _ => hposts
    · intro
      omega
  · have := hkeeps.stranded
    constructor
    · intro
      omega
    · exact fun hp => absurd hp hposts

theorem refused_posts {cfg : KernelConfig} {s : System} {e : Event} (h : step cfg s e = none) :
    Posts cfg s e := by
  cases e with
  | manageMemory =>
    rintro ⟨halg, pcb, hthread⟩
    simp [step, manageMemory, hthread] at h
  | _ => trivial

/-- Every ready process has a token in every state of a run if and only if no
step of the run enqueues the answer to a page fault under FEEDBACK. -/
theorem ready_tokens_iff (cfg : KernelConfig) (time : TimeVal) (es : List Event) :
    Always (step cfg) (TokensMatch cfg) (boot cfg time) es ↔
      Guarded (step cfg) (Posts cfg) (boot cfg time) es := by
  have hboot := (tokens_match_iff cfg _).mpr (boot_stranded cfg time)
  exact always_iff_guarded (step cfg) (Sound cfg) (TokensMatch cfg) (fun _ _ => True) (Posts cfg)
    (fun _ _ _ hs _ h => step_sound hs h) (fun _ _ _ hs hmatch _ h => step_tokens hs hmatch h)
    (fun _ _ _ _ h => refused_posts h) es _ (boot_sound cfg time) hboot
    (guarded_trivial (step cfg) es _)

/-- A process faults under FEEDBACK and memory's answer puts it back. -/
def strandingRun : List Event :=
  admission 0 ["MOV_IN AX 0", "EXIT"]++dispatching .feedback++stopping++resolving 0++
    List.replicate 3 .manageMemory

theorem page_fault_strands :
    run (step (smallKernel .feedback)) (boot (smallKernel .feedback) midnight) strandingRun =
        some (reached (step (smallKernel .feedback)) (boot (smallKernel .feedback) midnight)
          strandingRun) ∧
      ¬TokensMatch (smallKernel .feedback) (reached (step (smallKernel .feedback))
        (boot (smallKernel .feedback) midnight) strandingRun) :=
  ⟨run_reached _ _ _ (by decide +kernel), by decide +kernel⟩

end Geck.ReadyTokens
