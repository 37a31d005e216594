import Geck.LabelledRuns
import Geck.KernelFrames
import Geck.PackageStream

/-!
# The interrupt connection

`manage_interrupt` sends whole packages, and `process_interrupt` receives op codes
only: the length of a package is an op code to it. The packages have no payload,
so that word is a zero, which no case is for, and the next op code follows. The
kernel and its peers, with the bytes of this connection in place of its packages,
therefore do what they do with packages that are received whole.
-/

set_option autoImplicit false

namespace Geck.InterruptChannel
open Geck.LabelledRuns Geck.OffsetReader Geck.WireFormat Geck.WireMessages Geck.CpuTranslation
open Geck.KernelState Geck.KernelThreads Geck.KernelFrames

/-- `create_package`: the buffer is empty. -/
def createPackage (op : OperationCode) : Package := ⟨opCode op, []⟩

/-- What `process_interrupt` makes of a word that it receives. -/
inductive Heard where
  | raised
  | unknown (codOp : ℤ)
  deriving DecidableEq, Repr

/-- One turn of the loop of `process_interrupt`. -/
def hears : Reader UInt8 (List Heard) := do
  let codOp ← receiveOperation
  if codOp = opCode .executeInterruption then return [.raised]
  else if codOp = -1 then ofOption none
  else return [.unknown codOp]

/-- The kernel and its peers, the bytes in the interrupt connection and what the CPU has
made of those that it received. -/
structure Wired where
  system : System
  connection : List UInt8
  heard : List Heard

/-- What a turn does to the globals of the CPU. The packages in flight are those of the
connection: the op code of the first one was received. -/
def hear (s : System) : Heard → System
  | .raised => { s with
      interrupts := s.interrupts.tail
      cpu := { s.cpu with checkInterruption := true }
      cause := if s.cpu.checkInterruption then s.cause else s.interrupts.head? }
  | .unknown _ => s

/-- The dispatch whose quantum made `manage_interrupt` send a package. -/
def sentFor (w : Wired) : Event → List Dispatch
  | .manageInterrupt =>
    match w.system.threadInterrupt with
    | .send dispatch => [dispatch]
    | _ => []
  | _ => []

def sentBytes (w : Wired) (e : Event) : List UInt8 :=
  (sentFor w e).flatMap fun _ => serializePackage (createPackage .executeInterruption)

def wiredStep (cfg : KernelConfig) (w : Wired) (e : Event) : Option Wired :=
  match e with
  | .processInterrupt => (hears w.connection 0).map fun turn =>
    { system := turn.1.foldl hear w.system
      connection := w.connection.drop turn.2
      heard := w.heard++turn.1 }
  | e => (step cfg w.system e).map fun s =>
    { system := s, connection := w.connection++sentBytes w e, heard := w.heard }

def wiredBoot (cfg : KernelConfig) (time : TimeVal) : Wired where
  system := boot cfg time
  connection := []
  heard := []

def packages (n : ℕ) : List UInt8 :=
  (List.replicate n (serializePackage (createPackage .executeInterruption))).flatten

/-- One raise for each package, and its length as an unknown word. -/
def inTurn (n : ℕ) : List Heard := (List.replicate n [Heard.raised, .unknown 0]).flatten

def raises (heard : List Heard) : ℕ := heard.count .raised

/-- All that was sent has been heard or is in the connection, package by package. The reader is
before an op code, or before the length of the package that it raised for. -/
structure InStep (sent : List Dispatch) (w : Wired) : Prop where
  few : raises w.heard ≤ sent.length
  flight : w.system.interrupts = sent.drop (raises w.heard)
  aligned : (w.connection = packages w.system.interrupts.length ∧
      w.heard = inTurn (raises w.heard)) ∨
    (w.connection = intBytes 0++packages w.system.interrupts.length ∧
      w.heard++[.unknown 0] = inTurn (raises w.heard))

/-- A turn of the CPU's thread: it receives an op code that was sent, or the length behind one. -/
def Turn (w w' : Wired) : Prop :=
  (w'.heard = w.heard++[.raised] ∧ w'.system.cpu.checkInterruption = true ∧
    processInterrupt w.system = some w'.system) ∨
  (w'.heard = w.heard++[.unknown 0] ∧ w'.system = w.system)

/-- What the interrupt connection has done, and can still do, for the packages that were sent. -/
structure ChannelUsable (cfg : KernelConfig) (time : TimeVal) (sent : List Dispatch)
    (w : Wired) : Prop where
  inStep : InStep sent w
  turns : ∀ w', wiredStep cfg w .processInterrupt = some w' → Turn w w'
  refines : Relation.ReflTransGen (fun s t => ∃ e, step cfg s e = some t) (boot cfg time) w.system
  drains : ∃ n u, run (wiredStep cfg) w (List.replicate n .processInterrupt) = some u ∧
    u.connection = [] ∧ u.heard = inTurn sent.length

section Bytes

theorem decodes_interruption : Decodes hears (intBytes (opCode .executeInterruption)) [.raised] := by
  refine decodes_return (decodes_int (op_code_range _)) ?_
  rw [if_pos rfl]
  exact decodes_pure _

theorem decodes_length : Decodes hears (intBytes 0) [.unknown 0] := by
  refine decodes_return (decodes_int (int_range_length (Nat.two_pow_pos 31))) ?_
  rw [if_neg (by decide), if_neg (by decide)]
  exact decodes_pure _

theorem interruption_bytes : serializePackage (createPackage .executeInterruption) =
    intBytes (opCode .executeInterruption)++intBytes 0 :=
  List.append_nil _

theorem packages_succ (n : ℕ) : packages (n+1) =
    intBytes (opCode .executeInterruption)++(intBytes 0++packages n) := by
  rw [packages, List.replicate_succ, List.flatten_cons, interruption_bytes, List.append_assoc]
  rfl

theorem packages_add (n k : ℕ) : packages (n+k) = packages n++packages k := by
  rw [packages, List.replicate_add, List.flatten_append]
  rfl

theorem in_turn_succ (n : ℕ) : inTurn (n+1) = inTurn n++[.raised, .unknown 0] := by
  rw [inTurn, List.replicate_succ', List.flatten_append]
  rfl

theorem hears_advances : Advances 1 hears := by
  have h : Advances (4+0) hears := by
    refine advances_bind PackageStream.int_advances fun codOp => ?_
    split
    · exact advances_pure _
    split
    · exact advances_of_option none
    · exact advances_pure _
  exact advances_weaken h (by omega)

/-- From any bytes behind `n` packages on, the reader goes on where they start. -/
theorem emits_packages (n : ℕ) : Emits hears (packages n) (inTurn n) := by
  induction n with
  | zero => exact emits_nil
  | succ n ih =>
    rw [packages_add, in_turn_succ]
    have hone : packages 1 = intBytes (opCode .executeInterruption)++intBytes 0 :=
      (List.append_nil _).trans interruption_bytes
    rw [hone]
    exact emits_append ih (emits_append (emits_decodes hears_advances decodes_interruption)
      (emits_decodes hears_advances decodes_length))

theorem hears_nothing : hears [] 0 = none := rfl

theorem hears_interruption (rest : List UInt8) :
    hears (intBytes (opCode .executeInterruption)++rest) 0 = some ([.raised], 4) :=
  decodes_start decodes_interruption rest

theorem hears_length (rest : List UInt8) : hears (intBytes 0++rest) 0 = some ([.unknown 0], 4) :=
  decodes_start decodes_length rest

end Bytes

section Steps
variable {cfg : KernelConfig} {w w' : Wired} {e : Event} {sent : List Dispatch}

/-- Only `manage_interrupt` sends over the connection. -/
theorem step_sends {t : System} (he : e ≠ .processInterrupt) (h : step cfg w.system e = some t) :
    t.interrupts = w.system.interrupts++sentFor w e := by
  cases e with
  | processInterrupt => exact absurd rfl he
  | manageInterrupt =>
    cases hthread : w.system.threadInterrupt with
    | wait =>
      simp only [step, manageInterrupt, hthread] at h
      split at h
      · simp at h
      · obtain rfl := Option.some.inj h
        simp [sentFor, hthread]
    | _ =>
      simp only [step, manageInterrupt, hthread, Option.some.injEq] at h
      subst h
      simp [sentFor, hthread]
  | scheduleNextToRunning =>
    obtain ⟨_, _, _, _, _, _, _, _, _, _, _, rfl⟩ := schedule_next_to_running_frame h
    exact (List.append_nil _).symm
  | countQuantum expired =>
    obtain ⟨_, _, _, _, _, _, rfl⟩ := count_quantum_frame h
    exact (List.append_nil _).symm
  | processDispatch answers =>
    obtain ⟨_, _, _, _, _, _, _, rfl⟩ := process_dispatch_frame h
    exact (List.append_nil _).symm
  | _ => exact (distant_undisturbed rfl h).interrupts.trans (List.append_nil _).symm

theorem sent_bytes (w : Wired) (e : Event) : sentBytes w e = packages (sentFor w e).length := by
  induction hsent : sentFor w e with
  | nil => simp [sentBytes, hsent, packages]
  | cons dispatch rest =>
    have hone : rest = [] := by
      cases e with
      | manageInterrupt =>
        cases hthread : w.system.threadInterrupt with
        | send d => simp_all [sentFor]
        | _ => simp [sentFor, hthread] at hsent
      | _ => simp [sentFor] at hsent
    simp [sentBytes, hsent, hone, packages]

/-- All that a step can do to the connection. -/
theorem wired_step_cases (h : wiredStep cfg w e = some w') :
    (e = .processInterrupt ∧ ∃ words desp, hears w.connection 0 = some (words, desp) ∧
      w' = ⟨words.foldl hear w.system, w.connection.drop desp, w.heard++words⟩) ∨
    (e ≠ .processInterrupt ∧ ∃ t, step cfg w.system e = some t ∧
      w' = ⟨t, w.connection++sentBytes w e, w.heard⟩) := by
  cases e with
  | processInterrupt =>
    obtain ⟨⟨words, desp⟩, hturn, rfl⟩ := Option.map_eq_some_iff.mp h
    exact Or.inl ⟨rfl, words, desp, hturn, rfl⟩
  | _ =>
    simp only [wiredStep, Option.map_eq_some_iff] at h
    obtain ⟨t, ht, rfl⟩ := h
    exact Or.inr ⟨by simp, t, ht, rfl⟩

/-- In step, a turn receives the op code of the package that was sent first, or the length of
the one before it. -/
theorem in_step_turn {words : List Heard} {desp : ℕ} (hin : InStep sent w)
    (h : hears w.connection 0 = some (words, desp)) :
    (∃ dispatch rest, w.system.interrupts = dispatch::rest ∧ words = [.raised] ∧
      w.connection.drop desp = intBytes 0++packages rest.length ∧
      w.heard = inTurn (raises w.heard)) ∨
    (words = [.unknown 0] ∧ w.connection.drop desp = packages w.system.interrupts.length ∧
      w.heard++[.unknown 0] = inTurn (raises w.heard)) := by
  obtain ⟨hconnection, hheard⟩ | ⟨hconnection, hheard⟩ := hin.aligned
  · cases hq : w.system.interrupts with
    | nil =>
      rw [hconnection, hq] at h
      simp [packages, hears_nothing] at h
    | cons dispatch rest =>
      rw [hconnection, hq, List.length_cons, packages_succ, hears_interruption] at h
      obtain ⟨rfl, rfl⟩ := Prod.mk.inj (Option.some.inj h)
      refine Or.inl ⟨dispatch, rest, rfl, rfl, ?_, hheard⟩
      rw [hconnection, hq, List.length_cons, packages_succ]
      rfl
  · rw [hconnection, hears_length] at h
    obtain ⟨rfl, rfl⟩ := Prod.mk.inj (Option.some.inj h)
    refine Or.inr ⟨rfl, ?_, hheard⟩
    rw [hconnection]
    rfl

theorem raises_append (heard heard' : List Heard) :
    raises (heard++heard') = raises heard+raises heard' :=
  List.count_append

theorem in_step_raised {dispatch : Dispatch} {rest : List Dispatch} {system : System}
    {connection : List UInt8} (hin : InStep sent w) (hq : w.system.interrupts = dispatch::rest)
    (hheard : w.heard = inTurn (raises w.heard)) (hsystem : system.interrupts = rest)
    (hrest : connection = intBytes 0++packages rest.length) :
    InStep sent ⟨system, connection, w.heard++[.raised]⟩ := by
  have hraises : raises (w.heard++[.raised]) = raises w.heard+1 := raises_append _ _
  have hflight := hin.flight
  rw [hq] at hflight
  have hlt : raises w.heard < sent.length := by
    by_contra hge
    rw [List.drop_eq_nil_of_le (by omega)] at hflight
    simp at hflight
  refine ⟨?_, ?_, Or.inr ⟨?_, ?_⟩⟩
  · rw [hraises]
    exact hlt
  · rw [hsystem, hraises, ← List.tail_drop, ← hflight, List.tail_cons]
  · rw [hrest, hsystem]
  · rw [hraises, in_turn_succ, ← hheard, List.append_assoc]
    rfl

theorem in_step_length {connection : List UInt8} (hin : InStep sent w)
    (hheard : w.heard++[.unknown 0] = inTurn (raises w.heard))
    (hrest : connection = packages w.system.interrupts.length) :
    InStep sent ⟨w.system, connection, w.heard++[.unknown 0]⟩ := by
  have hraises : raises (w.heard++[.unknown 0]) = raises w.heard := raises_append _ _
  refine ⟨?_, ?_, Or.inl ⟨hrest, ?_⟩⟩
  · rw [hraises]
    exact hin.few
  · rw [hraises, hin.flight]
  · rw [hraises, hheard]

theorem in_step_sent {system : System} {more : List Dispatch} (hin : InStep sent w)
    (hsends : system.interrupts = w.system.interrupts++more) :
    InStep (sent++more) ⟨system, w.connection++packages more.length, w.heard⟩ := by
  have hlength : system.interrupts.length = w.system.interrupts.length+more.length := by
    rw [hsends, List.length_append]
  refine ⟨?_, ?_, ?_⟩
  · rw [List.length_append]
    exact le_trans hin.few (Nat.le_add_right _ _)
  · rw [hsends, hin.flight, List.drop_append_of_le_length hin.few]
  · rw [hlength, packages_add, ← List.append_assoc]
    exact hin.aligned.imp (fun h => ⟨by rw [h.1], h.2⟩) fun h => ⟨by rw [h.1], h.2⟩

theorem wired_step_in_step (hin : InStep sent w) (h : wiredStep cfg w e = some w') :
    InStep (sent++sentFor w e) w' := by
  obtain ⟨rfl, words, desp, hturn, rfl⟩ | ⟨he, t, ht, rfl⟩ := wired_step_cases h
  · rw [show sentFor w .processInterrupt = [] from rfl, List.append_nil]
    obtain ⟨dispatch, rest, hq, rfl, hrest, hheard⟩ | ⟨rfl, hrest, hheard⟩ := in_step_turn hin hturn
    · exact in_step_raised hin hq hheard (by simp [hear, hq]) hrest
    · exact in_step_length hin hheard hrest
  · rw [sent_bytes]
    exact in_step_sent hin (step_sends he ht)

/-- The bytes raise where the package at the head of the connection would, and a length does
nothing. -/
theorem turn_spec (hin : InStep sent w) (h : wiredStep cfg w .processInterrupt = some w') :
    Turn w w' := by
  obtain ⟨-, words, desp, hturn, rfl⟩ | ⟨he, -⟩ := wired_step_cases h
  · obtain ⟨dispatch, rest, hq, rfl, -, -⟩ | ⟨rfl, -, -⟩ := in_step_turn hin hturn
    · exact Or.inl ⟨rfl, rfl, by simp [processInterrupt, hear, hq]⟩
    · exact Or.inr ⟨rfl, rfl⟩
  · exact absurd rfl he

/-- While there are bytes in the connection, the thread of the CPU does not wait. -/
theorem turn_enabled (cfg : KernelConfig) (hin : InStep sent w) (hbytes : w.connection ≠ []) :
    ∃ w', wiredStep cfg w .processInterrupt = some w' ∧
      w'.connection.length < w.connection.length := by
  have hturn : ∃ words, hears w.connection 0 = some (words, 4) := by
    obtain ⟨hconnection, -⟩ | ⟨hconnection, -⟩ := hin.aligned
    · cases hq : w.system.interrupts with
      | nil => simp [hconnection, hq, packages] at hbytes
      | cons dispatch rest =>
        rw [hconnection, hq, List.length_cons, packages_succ, hears_interruption]
        exact ⟨_, rfl⟩
    · rw [hconnection, hears_length]
      exact ⟨_, rfl⟩
  obtain ⟨words, hturn⟩ := hturn
  refine ⟨_, by simp only [wiredStep, hturn]; rfl, ?_⟩
  have hpos := List.length_pos_iff.mpr hbytes
  rw [List.length_drop]
  omega

/-- With nothing left in the connection all that was sent has been heard. -/
theorem in_step_done (hin : InStep sent w) (hdone : w.connection = []) :
    w.heard = inTurn sent.length := by
  obtain ⟨hconnection, hheard⟩ | ⟨hconnection, -⟩ := hin.aligned
  · have hnone : w.system.interrupts = [] := by
      cases hq : w.system.interrupts with
      | nil => rfl
      | cons dispatch rest =>
        rw [hdone, hq, List.length_cons, packages_succ] at hconnection
        cases hconnection
    have hall : raises w.heard = sent.length :=
      le_antisymm hin.few (List.drop_eq_nil_iff.mp (hin.flight.symm.trans hnone))
    rw [hheard, hall]
  · rw [hdone] at hconnection
    cases hconnection

theorem channel_drains (hin : InStep sent w) :
    ∃ n u, run (wiredStep cfg) w (List.replicate n .processInterrupt) = some u ∧
      u.connection = [] ∧ u.heard = inTurn sent.length := by
  induction hn : w.connection.length using Nat.strong_induction_on generalizing w with
  | _ n ih =>
    by_cases hbytes : w.connection = []
    · exact ⟨0, w, rfl, hbytes, in_step_done hin hbytes⟩
    · obtain ⟨w', hstep, hlt⟩ := turn_enabled cfg hin hbytes
      have hin' := wired_step_in_step hin hstep
      rw [show sentFor w .processInterrupt = [] from rfl, List.append_nil] at hin'
      obtain ⟨k, u, hrun, hdone⟩ := ih w'.connection.length (hn ▸ hlt) hin' rfl
      exact ⟨k+1, u, (run_cons (wiredStep cfg) _ hstep).trans hrun, hdone⟩

/-- A step over the connection is a step with whole packages, or receives a length. -/
theorem wired_step_refines (hin : InStep sent w) (h : wiredStep cfg w e = some w') :
    Relation.ReflTransGen (fun s t => ∃ e, step cfg s e = some t) w.system w'.system := by
  by_cases he : e = .processInterrupt
  · subst he
    obtain ⟨-, -, hraised⟩ | ⟨-, hsame⟩ := turn_spec hin h
    · exact .single ⟨.processInterrupt, hraised⟩
    · rw [hsame]
  · obtain ⟨he', -⟩ | ⟨-, t, ht, rfl⟩ := wired_step_cases h
    · exact absurd he' he
    · exact .single ⟨e, ht⟩

end Steps

section Runs
variable {cfg : KernelConfig} {time : TimeVal} {events : List Event} {w : Wired}

theorem boot_in_step (cfg : KernelConfig) (time : TimeVal) : InStep [] (wiredBoot cfg time) :=
  ⟨Nat.le_refl 0, rfl, Or.inl ⟨rfl, rfl⟩⟩

theorem run_in_step (h : run (wiredStep cfg) (wiredBoot cfg time) events = some w) :
    InStep (collected (wiredStep cfg) sentFor (wiredBoot cfg time) events) w :=
  collected_run (wiredStep cfg) sentFor InStep (fun _ _ _ _ hin h => wired_step_in_step hin h)
    events [] _ w (boot_in_step cfg time) h

theorem run_refines (h : run (wiredStep cfg) (wiredBoot cfg time) events = some w) :
    Relation.ReflTransGen (fun s t => ∃ e, step cfg s e = some t) (boot cfg time) w.system := by
  have hsimulated := guarded_simulation (wiredStep cfg)
    (fun w s => (∃ sent, InStep sent w) ∧ w.system = s) (fun s t => ∃ e, step cfg s e = some t)
    (fun _ _ => True) ?_ events _ w (boot cfg time) ⟨⟨[], boot_in_step cfg time⟩, rfl⟩
    (guarded_trivial _ _ _) h
  · obtain ⟨s, hreached, -, rfl⟩ := hsimulated
    exact hreached
  · rintro w e w' s ⟨⟨sent, hin⟩, rfl⟩ - hstep
    exact ⟨w'.system, wired_step_refines hin hstep, ⟨_, wired_step_in_step hin hstep⟩, rfl⟩

end Runs

theorem raises_in_turn (n : ℕ) : raises (inTurn n) = n := by
  induction n with
  | zero => rfl
  | succ n ih =>
    rw [in_turn_succ, raises_append, ih]
    rfl

theorem packages_length (n : ℕ) : (packages n).length = 8*n := by
  induction n with
  | zero => rfl
  | succ n ih =>
    rw [packages_succ, List.length_append, List.length_append, ih]
    show 4+(4+8*n) = 8*(n+1)
    omega

/-- For any number of packages, and in any interleaving of the threads. -/
theorem interrupts_heard (cfg : KernelConfig) (time : TimeVal) :
    (∀ n, raises (inTurn n) = n ∧ ∀ rest,
      outputs hears (packages n++rest) 0 = inTurn n++outputs hears (packages n++rest) (8*n)) ∧
    ∀ events w, run (wiredStep cfg) (wiredBoot cfg time) events = some w →
      ChannelUsable cfg time
        (collected (wiredStep cfg) sentFor (wiredBoot cfg time) events) w := by
  refine ⟨fun n => ⟨raises_in_turn n, fun rest => ?_⟩, fun events w h => ?_⟩
  · have hemits := emits_start (emits_packages n) rest
    rwa [packages_length] at hemits
  · have hin := run_in_step h
    exact ⟨hin, fun w' => turn_spec hin, run_refines h, channel_drains hin⟩

/-- A quantum runs out, and the CPU has received the op code of the package. -/
def interruptedRun : List Event :=
  admission 0 ["SET AX 1", "EXIT"]++dispatching .rr++List.replicate 9 (.countQuantum true)++
    List.replicate 3 .manageInterrupt++[.processInterrupt]

def interruptedWire : Wired :=
  reached (wiredStep (smallKernel .rr)) (wiredBoot (smallKernel .rr) midnight) interruptedRun

theorem interrupts_heard_once :
    ∃ sent, sent.length = 1 ∧ ChannelUsable (smallKernel .rr) midnight sent interruptedWire ∧
      interruptedWire.heard = [.raised] ∧ interruptedWire.connection = intBytes 0 := by
  have hrun : run (wiredStep (smallKernel .rr)) (wiredBoot (smallKernel .rr) midnight)
      interruptedRun = some interruptedWire := run_reached _ _ _ (by decide +kernel)
  exact ⟨_, by decide +kernel,
    (interrupts_heard (smallKernel .rr) midnight).2 interruptedRun interruptedWire hrun,
    by decide +kernel, by decide +kernel⟩

end Geck.InterruptChannel
