import Geck.KernelOperations
import Geck.WholeMachine

/-!
# The whole machine with the list operations in two parts

The lists are the kernel's, and neither memory nor an instruction changes one.
-/

set_option autoImplicit false

namespace Geck.MachineOperations
open Geck.LabelledRuns Geck.SplitOperations Geck.SharedPcb Geck.MemoryState Geck.MemoryHandlers
open Geck.CpuTranslation Geck.KernelState Geck.KernelThreads Geck.KernelFrames Geck.WholeMachine
open Geck.KernelOperations

/-- Memory has a thread for the CPU, which is none of the kernel's. -/
def actor : Action → Option Thread
  | .thread e => some (thread e)
  | .attendKernel => some .memoria
  | .attendCpu _ => none
  | .processDispatch _ _ => some .cpu

def actionList (changed : System → Event → Option KernelList) (w : Machine) :
    Action → Option KernelList
  | .thread e => changed w.system e
  | _ => none

def machineOperations (cfg : KernelConfig) (mcfg : MemoryConfig) :
    Operations Machine Action (Option Thread) KernelList Contents where
  step := act cfg mcfg
  agent := actor
  component := actionList (listChanged cfg)
  locked := actionList (listLocked cfg)
  get := fun w => contents w.system
  put := fun w k l => { w with system := setContents w.system k l }

abbrev SplitMachine := Parted Machine Action KernelList Contents

def splitStart (cfg : KernelConfig) (mcfg : MemoryConfig) (time : TimeVal) (ram swap : ℕ → UInt8) :
    SplitMachine := ⟨start cfg mcfg time ram swap, []⟩

def splitAct (cfg : KernelConfig) (mcfg : MemoryConfig) :
    SplitMachine → Move Action → Option SplitMachine :=
  move (machineOperations cfg mcfg)

/-- No operation begins on a list while another one is on it. -/
def MachineListsWhole (cfg : KernelConfig) (mcfg : MemoryConfig) : SplitMachine → Move Action → Prop :=
  Alone (machineOperations cfg mcfg)

instance (cfg : KernelConfig) (mcfg : MemoryConfig) (c : SplitMachine) (m : Move Action) :
    Decidable (MachineListsWhole cfg mcfg c m) :=
  inferInstanceAs (Decidable (Alone (machineOperations cfg mcfg) c m))

section Laws
variable {cfg : KernelConfig} {mcfg : MemoryConfig} {w w' : Machine} {k : KernelList}

theorem act_contents {a : Action} (h : act cfg mcfg w a = some w')
    (hk : actionList (listChanged cfg) w a ≠ some k) :
    contents w'.system k = contents w.system k := by
  rcases act_cases h with ⟨e, t, rfl, -, ht, rfl⟩ | ⟨request, rest, memory, answer, rfl, -, -, rfl⟩ |
    ⟨request, memory, answer, rfl, -, rfl⟩ | ⟨value, times, t, rfl, ht, rfl⟩
  · exact step_contents ht hk
  · cases k <;> rfl
  · rfl
  · exact step_contents (e := .processDispatch _) ht (by simp [listChanged])

theorem act_waiting {a a' : Action} (h : act cfg mcfg w a = some w') (hne : actor a ≠ actor a')
    (hk : actionList (listChanged cfg) w a' = some k)
    (hsame : contents w'.system k = contents w.system k) :
    actionList (listChanged cfg) w' a' = some k := by
  cases a' with
  | thread e' =>
    rcases act_cases h with ⟨e, t, rfl, -, ht, rfl⟩ |
      ⟨request, rest, memory, answer, rfl, -, -, rfl⟩ | ⟨request, memory, answer, rfl, -, rfl⟩ |
      ⟨value, times, t, rfl, ht, rfl⟩
    · exact step_waiting ht (fun heq => hne (congrArg some heq)) hk hsame
    · cases e' <;> exact hk
    · exact hk
    · exact step_waiting (e := .processDispatch _) ht (fun heq => hne (congrArg some heq)) hk hsame
  | _ => simp [actionList] at hk

end Laws

theorem machine_lawful (cfg : KernelConfig) (mcfg : MemoryConfig) :
    Lawful (machineOperations cfg mcfg) where
  put_get := fun w k => by
    show { w with system := setContents w.system k (contents w.system k) } = w
    rw [set_contents_same]
  frame := act_contents
  waiting := act_waiting

end Geck.MachineOperations
