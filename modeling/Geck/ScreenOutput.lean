import Geck.CpuTransparency
import Geck.RegisterFile
import Geck.KernelThreads

/-!
# A register on its way to the screen

`I/O PANTALLA R` stops the CPU, which saves its registers and sends the PCB
with the name R; the kernel blocks the process and forwards both; the console
looks the register up by `atoi` of its name, which is zero for every name.
-/

set_option autoImplicit false

namespace Geck.ScreenOutput
open Geck.BlockStore Geck.SharedPcb Geck.CpuTranslation Geck.CpuExecution Geck.CpuTransparency
open Geck.RegisterFile Geck.KernelState Geck.KernelThreads

/-- `string_equals_ignore_case`. -/
def stringEqualsIgnoreCase (actual expected : String) : Bool :=
  actual.toList.map Char.toLower = expected.toList.map Char.toLower

/-- `cpu_registers[i]`. -/
def cpuRegister (r : Registers) (i : ℤ) : Option UInt32 := listGet [r.ax, r.bx, r.cx, r.dx] i

/-- The line printed; `%d` reads the word as an `int`, as `string_itoa` does. -/
def screenLine (parameter : String) (value : UInt32) : String :=
  "El valor del registro "++parameter++" es = "++stringItoa value++"\n"

/-- Nothing is printed for other names. -/
def showOnScreenPcbRegister (pcb : Pcb) (parameter : String) : Option String :=
  if stringEqualsIgnoreCase parameter "AX" then
    (cpuRegister pcb.cpuRegisters (atoi parameter)).map (screenLine parameter)
  else if stringEqualsIgnoreCase parameter "BX" then
    (cpuRegister pcb.cpuRegisters (atoi parameter)).map (screenLine parameter)
  else if stringEqualsIgnoreCase parameter "CX" then
    (cpuRegister pcb.cpuRegisters (atoi parameter)).map (screenLine parameter)
  else if stringEqualsIgnoreCase parameter "DX" then
    (cpuRegister pcb.cpuRegisters (atoi parameter)).map (screenLine parameter)
  else some ""

/-- The `IO_SCREEN` case of the console. -/
def consoleShows : ConsoleMessage → Option String
  | .io (.ioScreen pcb _ parameter) => showOnScreenPcbRegister pcb parameter
  | _ => none

/-- `execute_process` from an instruction that stops it to its package, with an
interruption arriving before it leaves or not. -/
def stoppedPackage (cfg : CpuConfig) (answers : Answers) (interruption : Bool) (cpu : Cpu)
    (pcb : Pcb) : Option CpuPackage := do
  let (cpu, pcb, _) ← instructionCycle cfg answers cpu pcb
  let cpu := interrupted cpu interruption
  if keepsRunning cpu then none else (leaveProcess cpu (saveContextPcb cpu pcb)).2

/-- What the console prints for the instruction. -/
def screenOutput (cfg : CpuConfig) (answers : Answers) (interruption : Bool) (cpu : Cpu)
    (pcb : Pcb) : Option String := do
  let package ← stoppedPackage cfg answers interruption cpu pcb
  consoleShows (ioMessage package)

theorem atoi_register_name (register : Register) : atoi (registerName register) = 0 := by
  cases register <;> decide

/-- The console prints AX under every name. -/
theorem show_on_screen_prints_ax (pcb : Pcb) (register : Register) :
    showOnScreenPcbRegister pcb (registerName register) =
      some (screenLine (registerName register) pcb.cpuRegisters.ax) := by
  have hlook : cpuRegister pcb.cpuRegisters (atoi (registerName register)) =
      some pcb.cpuRegisters.ax := by
    rw [atoi_register_name]
    rfl
  unfold showOnScreenPcbRegister
  rw [hlook]
  cases register <;> rfl

/-- The instruction stops the process with its registers saved and its counter advanced. -/
theorem screen_instruction_stops (cfg : CpuConfig) (answers : Answers) (interruption : Bool)
    (cpu : Cpu) (pcb : Pcb) (line parameter : String) (rest : List String)
    (hrun : keepsRunning cpu = true) (hline : fetchNextInstructionToExecute pcb = some line)
    (hdecode : decode cfg line = "I/O"::"PANTALLA"::parameter::rest) :
    stoppedPackage cfg answers interruption cpu pcb = some (.ioScreen
      { updateProgramCounter pcb with cpuRegisters := cpu.registers } "PANTALLA" parameter) := by
  obtain ⟨registers, e, i, c, f, g, device, param, segment, page, tlb⟩ := cpu
  simp only [keepsRunning, Bool.and_eq_true, Bool.not_eq_true'] at hrun
  obtain ⟨⟨⟨⟨rfl, rfl⟩, rfl⟩, rfl⟩, rfl⟩ := hrun
  have hkey : keyfromstring "I/O" = .io := by decide
  cases interruption <;>
    simp [stoppedPackage, instructionCycle, hline, hdecode, executeInstruction, hkey, interrupted,
      keepsRunning, leaveProcess, saveContextPcb, sendPcbIoPackage, updateProgramCounter]

theorem screen_line_injective (parameter : String) {v w : UInt32}
    (h : screenLine parameter v = screenLine parameter w) : v = w := by
  have ht : stringItoa v = stringItoa w :=
    (String.append_right_inj _).mp ((String.append_left_inj "\n").mp h)
  rw [← atoi_string_itoa v, ht, atoi_string_itoa]

/-- `I/O PANTALLA R` prints the value that R had when it was executed exactly
when R is AX or holds what AX holds. -/
theorem screen_shows_register_iff (cfg : CpuConfig) (answers : Answers) (interruption : Bool)
    (cpu : Cpu) (pcb : Pcb) (register : Register) (line : String) (rest : List String)
    (hrun : keepsRunning cpu = true) (hline : fetchNextInstructionToExecute pcb = some line)
    (hdecode : decode cfg line = "I/O"::"PANTALLA"::registerName register::rest) :
    screenOutput cfg answers interruption cpu pcb =
        some (screenLine (registerName register) (file cpu.registers register)) ↔
      register = .ax ∨ file cpu.registers register = file cpu.registers .ax := by
  have hprints : screenOutput cfg answers interruption cpu pcb =
      some (screenLine (registerName register) (file cpu.registers .ax)) := by
    rw [screenOutput, screen_instruction_stops cfg answers interruption cpu pcb line
      (registerName register) rest hrun hline hdecode]
    exact show_on_screen_prints_ax _ register
  rw [hprints, Option.some.injEq]
  constructor
  · intro h
    exact Or.inr (screen_line_injective _ h).symm
  · rintro (rfl | h)
    · rfl
    · rw [h]

/-- A process that shows BX while AX holds something else. -/
def showsBx : Pcb := pcbCreate ["SET BX 7", "I/O PANTALLA BX", "EXIT"] 0 1 []

/-- After the `SET`. -/
def beforeScreen : Cpu := idleCpu ⟨0, 7, 0, 0⟩

/-- BX holds 7 and the console prints 0. -/
theorem screen_shows_other_register :
    screenOutput smallCpu faulting false beforeScreen (updateProgramCounter showsBx) =
      some "El valor del registro BX es = 0\n" ∧
    screenOutput smallCpu faulting false beforeScreen (updateProgramCounter showsBx) ≠
      some (screenLine "BX" (file beforeScreen.registers .bx)) := by
  decide +kernel

theorem screen_shows_register_ax :
    screenOutput smallCpu faulting true (idleCpu ⟨5, 7, 0, 0⟩)
        (pcbCreate ["I/O PANTALLA AX"] 0 1 []) =
      some (screenLine (registerName .ax) (file ⟨5, 7, 0, 0⟩ .ax)) :=
  (screen_shows_register_iff smallCpu faulting true (idleCpu ⟨5, 7, 0, 0⟩)
    (pcbCreate ["I/O PANTALLA AX"] 0 1 []) .ax "I/O PANTALLA AX" [] (by decide +kernel)
    (by decide +kernel) (by decide +kernel)).mpr (Or.inl rfl)

end Geck.ScreenOutput
