import Geck.WireMessages

/-!
# Streams of packages

Each receiving loop reads an op code and leaves the rest of the package to the
case of that op code. Where no case reads it, the length and the payload are
read as op codes in their turn. What has not arrived yet is waited for, an op
code of minus one ends the loop.
-/

set_option autoImplicit false

namespace Geck.PackageStream
open Geck.MemoryHandlers Geck.OffsetReader Geck.WireFormat Geck.WireMessages

/-- The cases of a loop: those that receive a buffer and those that only have the op code. -/
structure Loop where
  reads : List OperationCode
  bare : List OperationCode
  package_unknown : OperationCode.package ∉ reads++bare
  another : ∀ op, ∃ op' ∈ reads, op' ≠ op

/-- From the console's thread in the kernel. -/
def receiveConsole : Loop where
  reads := [.initProcess, .ioScreenResponse, .ioKeyboardResponse]
  bare := []
  package_unknown := by decide
  another := by
    intro op
    by_cases h : op = .initProcess
    · exact ⟨.ioScreenResponse, by decide, by simp [h]⟩
    · exact ⟨.initProcess, by decide, fun he => h he.symm⟩

def manageMemory : Loop where
  reads := [.initProcessStructuresMemoryResponse, .responsePageFault]
  bare := []
  package_unknown := by decide
  another := by
    intro op
    by_cases h : op = .responsePageFault
    · exact ⟨.initProcessStructuresMemoryResponse, by decide, by simp [h]⟩
    · exact ⟨.responsePageFault, by decide, fun he => h he.symm⟩

def attendCpu : Loop where
  reads := [.frameRequest, .movOut, .movIn]
  bare := [.sendConfig]
  package_unknown := by decide
  another := by
    intro op
    by_cases h : op = .frameRequest
    · exact ⟨.movOut, by decide, by simp [h]⟩
    · exact ⟨.frameRequest, by decide, fun he => h he.symm⟩

def attendKernel : Loop where
  reads := [.initProcessStructuresMemory, .requestPageFault, .endStructures]
  bare := []
  package_unknown := by decide
  another := by
    intro op
    by_cases h : op = .endStructures
    · exact ⟨.requestPageFault, by decide, by simp [h]⟩
    · exact ⟨.endStructures, by decide, fun he => h he.symm⟩

inductive Receiver where
  | receiveConsole
  | manageMemory
  | attendCpu
  | attendKernel
  deriving DecidableEq, Repr

def loopOf : Receiver → Loop
  | .receiveConsole => receiveConsole
  | .manageMemory => manageMemory
  | .attendCpu => attendCpu
  | .attendKernel => attendKernel

/-- An op code and the payload its case received. -/
abbrev Handled := ℤ × Buffer

/-- One turn of the loop. -/
def turn (loop : Loop) : Reader UInt8 (List Handled) := do
  let code ← receiveOperation
  if code = -1 then ofOption none
  else if code ∈ loop.reads.map opCode then do
    let buffer ← receiveBuffer
    return [(code, buffer)]
  else if code ∈ loop.bare.map opCode then return [(code, [])]
  else return []

def handled (loop : Loop) (stream : List UInt8) : List Handled := outputs (turn loop) stream 0

/-- A package that `send_package` can send. -/
structure Sent where
  operation : OperationCode
  buffer : Buffer
  size : buffer.length < 2^31

def Sent.package (p : Sent) : Package := ⟨opCode p.operation, p.buffer⟩

def streamOf (ps : List Sent) : List UInt8 := ps.flatMap fun p => serializePackage p.package

/-- What the loop should do with one package. -/
def meant (loop : Loop) (p : Sent) : List Handled :=
  if p.operation ∈ loop.reads++loop.bare then [(opCode p.operation, p.buffer)] else []

/-- The four-byte words of a payload. -/
def words : List UInt8 → List ℤ
  | a::b::c::d::rest => signed (loadWord (fun k => [a, b, c, d].getD k 0) 0) :: words rest
  | _ => []

/-- No case of the loop is for this op code. -/
def Passed (loop : Loop) (code : ℤ) : Prop :=
  code ≠ -1 ∧ code ∉ loop.reads.map opCode ∧ code ∉ loop.bare.map opCode

def PassedText (loop : Loop) (text : List UInt8) : Prop :=
  text.length % 4 = 0 ∧ ∀ w ∈ words text, Passed loop w

/-- The loop comes out of the package where the next one starts. -/
def Clean (loop : Loop) (p : Sent) : Prop :=
  if p.operation ∈ loop.reads then True
  else if p.operation ∈ loop.bare then p.buffer = []
  else Passed loop p.buffer.length ∧ PassedText loop p.buffer

theorem op_code_injective {op op' : OperationCode} (h : opCode op = opCode op') : op = op' := by
  have : ∀ a b : OperationCode, a.ctorIdx = b.ctorIdx → a = b := by
    intro a b hab
    cases a <;> cases b <;> first | rfl | cases hab
  apply this
  exact Int.ofNat.inj h

theorem op_code_bounds (op : OperationCode) : 0 ≤ opCode op ∧ opCode op < 38 := by
  cases op <;> decide

theorem mem_op_codes {op : OperationCode} {ops : List OperationCode} :
    opCode op ∈ ops.map opCode ↔ op ∈ ops := by
  constructor
  · intro h
    obtain ⟨op', hmem, he⟩ := List.mem_map.mp h
    rwa [op_code_injective he] at hmem
  · intro h
    exact List.mem_map_of_mem h

theorem op_code_positive {loop : Loop} {op : OperationCode} (h : op ∈ loop.reads++loop.bare) :
    0 < opCode op := by
  have hne : op ≠ .package := by
    intro he
    rw [he] at h
    exact loop.package_unknown h
  have hbounds := op_code_bounds op
  have hzero : opCode op ≠ 0 := by
    intro he
    exact hne (op_code_injective he)
  omega

theorem passed_zero (loop : Loop) : Passed loop 0 := by
  have h : ∀ ops : List OperationCode, ops ⊆ loop.reads++loop.bare → 0 ∉ ops.map opCode := by
    intro ops hsub hmem
    obtain ⟨op, hop, he⟩ := List.mem_map.mp hmem
    have := op_code_positive (hsub hop)
    omega
  refine ⟨by decide, h _ (List.subset_append_left _ _), h _ (List.subset_append_right _ _)⟩

theorem passed_large (loop : Loop) {w : ℤ} (h : 38 ≤ w) : Passed loop w := by
  have hlarge : ∀ ops : List OperationCode, w ∉ ops.map opCode := by
    intro ops hmem
    obtain ⟨op, hop, he⟩ := List.mem_map.mp hmem
    have := op_code_bounds op
    omega
  refine ⟨by omega, hlarge _, hlarge _⟩

theorem int_advances : Advances 4 readInt := by
  have h : Advances 4 readUint32 := advances_bind (advances_cells 4) fun _ => advances_pure _
  exact advances_bind h fun _ => advances_pure _

theorem buffer_advances : Advances 0 receiveBuffer := by
  have h : Advances (4+0) receiveBuffer := by
    refine advances_bind int_advances ?_
    intro size
    split
    · exact advances_weaken (advances_cells _) (Nat.zero_le _)
    · exact advances_of_option none
  exact advances_weaken h (Nat.zero_le _)

theorem turn_advances (loop : Loop) : Advances 1 (turn loop) := by
  have h : Advances (4+0) (turn loop) := by
    refine advances_bind int_advances ?_
    intro code
    split
    · exact advances_of_option none
    split
    · exact advances_bind buffer_advances fun _ => advances_pure _
    split
    · exact advances_pure _
    · exact advances_pure _
  exact advances_weaken h (by omega)

/-- A word of four bytes, wherever it stands. -/
theorem decodes_word (a b c d : UInt8) :
    Decodes receiveOperation [a, b, c, d]
      (signed (loadWord (fun k => [a, b, c, d].getD k 0) 0)) := by
  have h : Decodes readUint32 [a, b, c, d] (loadWord (fun k => [a, b, c, d].getD k 0) 0) := by
    apply decodes_return (decodes_cells [a, b, c, d])
    exact decodes_pure _
  apply decodes_return h
  exact decodes_pure _

section Turns
variable {loop : Loop} {text : List UInt8} {code : ℤ} (hcode : Decodes receiveOperation text code)
include hcode

theorem decodes_passed (h : Passed loop code) : Decodes (turn loop) text [] := by
  apply decodes_return hcode
  rw [if_neg h.1, if_neg h.2.1, if_neg h.2.2]
  exact decodes_pure []

theorem decodes_bare (hminus : code ≠ -1) (hreads : code ∉ loop.reads.map opCode)
    (hbare : code ∈ loop.bare.map opCode) : Decodes (turn loop) text [(code, [])] := by
  apply decodes_return hcode
  rw [if_neg hminus, if_neg hreads, if_pos hbare]
  exact decodes_pure _

theorem decodes_reads (hminus : code ≠ -1) (hreads : code ∈ loop.reads.map opCode)
    {buffer : Buffer} (hlen : buffer.length < 2^31) :
    Decodes (turn loop) (text++(intBytes buffer.length++buffer)) [(code, buffer)] := by
  apply decodes_bind hcode
  rw [if_neg hminus, if_pos hreads]
  apply decodes_return (decodes_buffer hlen)
  exact decodes_pure _

end Turns

theorem emits_passed_text (loop : Loop) (text : List UInt8) (h : PassedText loop text) :
    Emits (turn loop) text [] := by
  induction text using words.induct with
  | case1 a b c d rest ih =>
    obtain ⟨hlen, hwords⟩ := h
    have hword := hwords _ (List.mem_cons_self ..)
    have hfirst := emits_decodes (turn_advances loop) (decodes_passed (decodes_word a b c d) hword)
    have hrest : PassedText loop rest := by
      constructor
      · simp only [List.length_cons] at hlen
        omega
      · intro w hw
        exact hwords w (List.mem_cons_of_mem _ hw)
    exact emits_append hfirst (ih hrest)
  | case2 text hshort =>
    have hnil : text = [] := by
      have hlen := h.1
      match text, hshort with
      | [], _ => rfl
      | [_], _ => simp at hlen
      | [_, _], _ => simp at hlen
      | [_, _, _], _ => simp at hlen
      | a::b::c::d::rest, hshort => exact absurd rfl (hshort a b c d rest)
    rw [hnil]
    exact emits_nil

theorem op_code_proper (op : OperationCode) : opCode op ≠ -1 := by
  have := op_code_bounds op
  omega

theorem emits_clean (loop : Loop) (p : Sent) (h : Clean loop p) :
    Emits (turn loop) (serializePackage p.package) (meant loop p) := by
  have hcode := decodes_int (op_code_range p.operation)
  rw [serializePackage, List.append_assoc]
  by_cases hreads : p.operation ∈ loop.reads
  · rw [meant, if_pos (List.mem_append_left _ hreads)]
    exact emits_decodes (turn_advances loop)
      (decodes_reads hcode (op_code_proper _) (mem_op_codes.mpr hreads) p.size)
  have hreads' : opCode p.operation ∉ loop.reads.map opCode := fun hmem =>
    hreads (mem_op_codes.mp hmem)
  rw [Clean, if_neg hreads] at h
  by_cases hbare : p.operation ∈ loop.bare
  · rw [if_pos hbare] at h
    rw [meant, if_pos (List.mem_append_right _ hbare), h, ← List.append_nil [_]]
    have hfirst := emits_decodes (turn_advances loop)
      (decodes_bare hcode (op_code_proper _) hreads' (mem_op_codes.mpr hbare))
    have hsize := emits_decodes (turn_advances loop)
      (decodes_passed (decodes_int (int_range_length p.size)) (by rw [h]; exact passed_zero loop))
    refine emits_append hfirst ?_
    show Emits (turn loop) (intBytes p.buffer.length++p.buffer) []
    rw [h] at hsize ⊢
    exact emits_append hsize emits_nil
  · rw [if_neg hbare] at h
    have hbare' : opCode p.operation ∉ loop.bare.map opCode := fun hmem =>
      hbare (mem_op_codes.mp hmem)
    rw [meant, if_neg (by simp [hreads, hbare])]
    have hfirst := emits_decodes (turn_advances loop)
      (decodes_passed hcode ⟨op_code_proper _, hreads', hbare'⟩)
    have hsize := emits_decodes (turn_advances loop)
      (decodes_passed (decodes_int (int_range_length p.size)) h.1)
    exact emits_append hfirst (emits_append hsize (emits_passed_text loop p.buffer h.2))

theorem handled_clean (loop : Loop) (ps : List Sent) (h : ∀ p ∈ ps, Clean loop p) :
    handled loop (streamOf ps) = ps.flatMap (meant loop) := by
  apply outputs_emitted (turn_advances loop)
  exact emits_flat_map _ _ ps fun p hp => emits_clean loop p (h p hp)

theorem turn_minus {loop : Loop} {text : List UInt8} (hcode : Decodes receiveOperation text (-1))
    (before after : List UInt8) :
    turn loop (before++(text++after)) before.length = none := by
  rw [turn]
  show (receiveOperation (before++(text++after)) before.length).bind _ = none
  rw [hcode before after]
  rfl

theorem turn_short {loop : Loop} {text : List UInt8} (h : text.length < 4)
    (before : List UInt8) : turn loop (before++text) before.length = none := by
  have hcells : cells 4 (before++text) before.length = none := by
    rw [cells, if_neg]
    rw [List.length_append]
    omega
  show ((((cells 4 (before++text) before.length).bind _).bind _).bind _) = none
  rw [hcells]
  rfl

/-- A word that is a known op code is handled, or waits for its payload. -/
theorem turn_known {loop : Loop} {text : List UInt8} {code : ℤ}
    (hcode : Decodes receiveOperation text code) (h : ¬Passed loop code)
    (before after : List UInt8) {vs : List Handled} {desp : ℕ}
    (hturn : turn loop (before++(text++after)) before.length = some (vs, desp)) :
    ∃ payload, vs = [(code, payload)] := by
  have hminus : code ≠ -1 := by
    intro he
    rw [he] at hcode
    rw [turn_minus hcode] at hturn
    cases hturn
  rw [turn] at hturn
  change (receiveOperation (before++(text++after)) before.length).bind _ = _ at hturn
  rw [hcode before after, Option.bind_some] at hturn
  simp only [if_neg hminus] at hturn
  by_cases hreads : code ∈ loop.reads.map opCode
  · simp only [if_pos hreads] at hturn
    change (receiveBuffer _ _).bind _ = _ at hturn
    cases hbuffer : receiveBuffer (before++(text++after)) (before.length+text.length) with
    | none =>
      rw [hbuffer] at hturn
      cases hturn
    | some p =>
      rw [hbuffer] at hturn
      cases hturn
      exact ⟨p.1, rfl⟩
  · by_cases hbare : code ∈ loop.bare.map opCode
    · simp only [if_neg hreads, if_pos hbare] at hturn
      cases hturn
      exact ⟨[], rfl⟩
    · exact absurd ⟨hminus, hreads, hbare⟩ h

theorem outputs_known {loop : Loop} {text : List UInt8} {code : ℤ}
    (hcode : Decodes receiveOperation text code) (h : ¬Passed loop code)
    (before after : List UInt8) {v : Handled} (hne : v.1 ≠ code) :
    outputs (turn loop) (before++(text++after)) before.length ≠ [v] := by
  intro he
  cases hturn : turn loop (before++(text++after)) before.length with
  | none =>
    rw [outputs_none hturn] at he
    cases he
  | some p =>
    obtain ⟨vs, desp⟩ := p
    obtain ⟨payload, rfl⟩ := turn_known hcode h before after hturn
    rw [outputs_some (turn_advances loop) hturn, List.singleton_append, List.cons.injEq] at he
    exact hne (congrArg Prod.fst he.1.symm)

theorem word_value (a b c d : UInt8) (hd : d.toNat < 128) :
    signed (loadWord (fun k => [a, b, c, d].getD k 0) 0) =
      a.toNat+256*b.toNat+65536*c.toNat+16777216*d.toNat := by
  have ha := a.toNat_lt
  have hb := b.toNat_lt
  have hc := c.toNat_lt
  have hword : (loadWord (fun k => [a, b, c, d].getD k 0) 0).toNat =
      a.toNat+256*b.toNat+65536*c.toNat+16777216*d.toNat := by
    simp [loadWord]
    omega
  unfold signed
  rewrite [hword]
  apply Int.bmod_eq_of_le
  · omega
  · omega

theorem int_bytes_op_code (op : OperationCode) :
    intBytes (opCode op) = [UInt8.ofNat (opCode op).toNat, 0, 0, 0] := by
  cases op <;> decide

/-- A payload that ends inside a word shifts the op code of the package behind it. -/
theorem outputs_shifted (loop : Loop) {text : List UInt8} (hlo : 0 < text.length)
    (hhi : text.length < 4) {op : OperationCode} (hop : 0 < opCode op) (before : List UInt8) :
    outputs (turn loop) (before++(text++serializePackage ⟨opCode op, []⟩)) before.length = [] := by
  have hbounds := op_code_bounds op
  have hbyte : (UInt8.ofNat (opCode op).toNat).toNat = (opCode op).toNat := by
    rw [UInt8.toNat_ofNat']
    omega
  have hstream : serializePackage ⟨opCode op, []⟩ =
      [UInt8.ofNat (opCode op).toNat, 0, 0, 0, 0, 0, 0, 0] := by
    have hempty : intBytes 0 = [0, 0, 0, 0] := by decide
    simp [serializePackage, int_bytes_op_code, hempty]
  have hzero := decodes_passed (decodes_word 0 0 0 0)
    (by rw [word_value 0 0 0 0 (by decide)]; exact passed_zero loop)
  have hshift : ∀ a b c d : UInt8, d.toNat < 128 →
      38 ≤ (a.toNat : ℤ)+256*b.toNat+65536*c.toNat+16777216*d.toNat →
      ∀ rest : List UInt8, rest.length < 4 →
      outputs (turn loop) (before++([a, b, c, d]++([0, 0, 0, 0]++rest))) before.length = [] := by
    intro a b c d hd hlarge rest hrest
    have hword := decodes_passed (decodes_word a b c d)
      (by rw [word_value a b c d hd]; exact passed_large loop hlarge)
    have hboth := emits_append (emits_decodes (turn_advances loop) hword)
      (emits_decodes (turn_advances loop) hzero)
    have h := hboth before rest
    rw [List.append_assoc] at h
    rw [h, ← List.append_assoc [a, b, c, d], ← List.append_assoc before, ← List.length_append,
      outputs_none (turn_short hrest _)]
    rfl
  have hsmall : ((0 : UInt8).toNat : ℤ) = 0 := rfl
  rw [hstream]
  rcases text with _ | ⟨a, _ | ⟨b, _ | ⟨c, _ | ⟨d, rest⟩⟩⟩⟩
  · exact absurd hlo (lt_irrefl 0)
  · exact hshift a _ 0 0 (by decide) (by rw [hbyte, hsmall]; omega) [0] (by decide)
  · exact hshift a b _ 0 (by decide) (by rw [hbyte, hsmall]; omega) [0, 0] (by decide)
  · exact hshift a b c _ (by omega) (by rw [hbyte]; omega) [0, 0, 0] (by decide)
  · simp only [List.length_cons] at hhi
    omega

/-- After a text that is not passed some package the loop knows is lost or another handled. -/
theorem text_betrays (loop : Loop) (text : List UInt8) (h : ¬PassedText loop text) :
    ∃ op ∈ loop.reads, ∀ before : List UInt8,
      outputs (turn loop) (before++(text++serializePackage ⟨opCode op, []⟩)) before.length ≠
        [(opCode op, [])] := by
  induction text using words.induct with
  | case1 a b c d rest ih =>
    have hcode := decodes_word a b c d
    by_cases hpass : Passed loop (signed (loadWord (fun k => [a, b, c, d].getD k 0) 0))
    · have hrest : ¬PassedText loop rest := by
        intro hrest
        apply h
        constructor
        · have := hrest.1
          simp only [List.length_cons]
          omega
        · intro w hw
          rw [words] at hw
          rcases List.mem_cons.mp hw with he | hw
          · rw [he]
            exact hpass
          · exact hrest.2 w hw
      obtain ⟨op, hop, hne⟩ := ih hrest
      refine ⟨op, hop, ?_⟩
      intro before he
      apply hne (before++[a, b, c, d])
      have hskip := emits_decodes (turn_advances loop) (decodes_passed hcode hpass) before
        (rest++serializePackage ⟨opCode op, []⟩)
      rw [List.nil_append] at hskip
      rw [List.length_append, List.append_assoc]
      exact hskip.symm.trans he
    · have hother : ∃ op ∈ loop.reads,
          opCode op ≠ signed (loadWord (fun k => [a, b, c, d].getD k 0) 0) := by
        by_cases hop : ∃ op, opCode op = signed (loadWord (fun k => [a, b, c, d].getD k 0) 0)
        · obtain ⟨op, he⟩ := hop
          obtain ⟨op', hmem, hne⟩ := loop.another op
          exact ⟨op', hmem, fun he' => hne (op_code_injective (he'.trans he.symm))⟩
        · obtain ⟨op', hmem, _⟩ := loop.another .package
          exact ⟨op', hmem, fun he' => hop ⟨op', he'⟩⟩
      obtain ⟨op, hop, hne⟩ := hother
      refine ⟨op, hop, ?_⟩
      intro before
      exact outputs_known hcode hpass before _ hne
  | case2 text hshort =>
    obtain ⟨op, hop, _⟩ := loop.another .package
    refine ⟨op, hop, ?_⟩
    intro before
    have hlo : 0 < text.length := by
      apply List.length_pos_iff.mpr
      intro hnil
      apply h
      rw [hnil]
      exact ⟨rfl, fun w hw => absurd hw (by simp [words])⟩
    have hhi : text.length < 4 := by
      match text, hshort with
      | [], _ => simp
      | [_], _ => simp
      | [_, _], _ => simp
      | [_, _, _], _ => simp
      | a::b::c::d::rest, hshort => exact absurd rfl (hshort a b c d rest)
    rw [outputs_shifted loop hlo hhi (op_code_positive (List.mem_append_left _ hop))]
    simp

theorem words_int (x : ℤ) (text : List UInt8) :
    words (intBytes x++text) = signed (UInt32.ofInt x)::words text := by
  rw [← load_word_bytes (UInt32.ofInt x)]
  rfl

theorem handled_bare {loop : Loop} {p : Sent} (hreads : p.operation ∉ loop.reads)
    (hbare : p.operation ∈ loop.bare) (h : p.buffer ≠ []) :
    handled loop (streamOf [p]) ≠ meant loop p := by
  have hreads' : opCode p.operation ∉ loop.reads.map opCode := fun hmem =>
    hreads (mem_op_codes.mp hmem)
  have hfirst := emits_decodes (turn_advances loop) (decodes_bare
    (decodes_int (op_code_range p.operation)) (op_code_proper _) hreads'
    (mem_op_codes.mpr hbare))
  have hstream : streamOf [p] = intBytes (opCode p.operation)++
      (intBytes p.buffer.length++p.buffer) := by
    simp [streamOf, serializePackage, Sent.package]
  intro he
  rw [handled, hstream, meant, if_pos (List.mem_append_right _ hbare), emits_start hfirst,
    List.singleton_append, List.cons.injEq] at he
  exact h (congrArg Prod.snd he.1).symm

def bareSent (op : OperationCode) : Sent := ⟨op, [], Nat.two_pow_pos 31⟩

theorem passed_sized {loop : Loop} {p : Sent}
    (h : PassedText loop (intBytes p.buffer.length++p.buffer)) :
    Passed loop p.buffer.length ∧ PassedText loop p.buffer := by
  have hwords : words (intBytes p.buffer.length++p.buffer) =
      (p.buffer.length : ℤ)::words p.buffer := by
    rw [words_int, signed_of_int (int_range_length p.size)]
  obtain ⟨hlen, hpass⟩ := h
  rw [hwords] at hpass
  refine ⟨hpass _ (List.mem_cons_self ..), ?_, ?_⟩
  · rw [List.length_append] at hlen
    change (4+p.buffer.length) % 4 = 0 at hlen
    omega
  · intro w hw
    exact hpass w (List.mem_cons_of_mem _ hw)

theorem stream_of_two (p : Sent) (op : OperationCode) :
    streamOf [p, bareSent op] = intBytes (opCode p.operation)++
      ((intBytes p.buffer.length++p.buffer)++serializePackage ⟨opCode op, []⟩) := by
  rw [streamOf, List.flatMap_cons, List.flatMap_cons, List.flatMap_nil, List.append_nil,
    serializePackage, List.append_assoc, List.append_assoc, List.append_assoc]
  rfl

theorem handled_unknown {loop : Loop} {p : Sent} (hreads : p.operation ∉ loop.reads)
    (hbare : p.operation ∉ loop.bare)
    (h : ¬(Passed loop p.buffer.length ∧ PassedText loop p.buffer)) :
    ∃ q : Sent, q.operation ∈ loop.reads ∧
      handled loop (streamOf [p, q]) ≠ [p, q].flatMap (meant loop) := by
  have hpass : Passed loop (opCode p.operation) :=
    ⟨op_code_proper _, fun hmem => hreads (mem_op_codes.mp hmem),
      fun hmem => hbare (mem_op_codes.mp hmem)⟩
  have hcode := decodes_passed (decodes_int (op_code_range p.operation)) hpass
  obtain ⟨op, hop, hne⟩ := text_betrays loop (intBytes p.buffer.length++p.buffer)
    fun ht => h (passed_sized ht)
  refine ⟨bareSent op, hop, ?_⟩
  have hmeant : [p, bareSent op].flatMap (meant loop) = [(opCode op, [])] := by
    simp [meant, bareSent, hreads, hbare, hop]
  rw [handled, stream_of_two, hmeant, emits_start (emits_decodes (turn_advances loop) hcode),
    List.nil_append]
  exact hne _

/-- A loop handles the packages it knows, and only these, on all streams in which the others are
of given kinds, exactly if it comes out of each of these where the next package starts. -/
theorem unknown_ignored_iff (r : Receiver) (kinds : Set Sent) :
    (∀ ps : List Sent, (∀ p ∈ ps, p.operation ∈ (loopOf r).reads ∨ p ∈ kinds) →
      handled (loopOf r) (streamOf ps) = ps.flatMap (meant (loopOf r))) ↔
    ∀ p ∈ kinds, Clean (loopOf r) p := by
  constructor
  · intro h p hp
    by_cases hreads : p.operation ∈ (loopOf r).reads
    · rw [Clean, if_pos hreads]
      trivial
    rw [Clean, if_neg hreads]
    by_cases hbare : p.operation ∈ (loopOf r).bare
    · rw [if_pos hbare]
      by_contra hne
      apply handled_bare hreads hbare hne
      rw [h [p] (by simp [hp])]
      simp
    · rw [if_neg hbare]
      by_contra hne
      obtain ⟨q, hq, hwrong⟩ := handled_unknown hreads hbare hne
      exact hwrong (h [p, q] (by simp [hp, hq]))
  · intro h ps hps
    apply handled_clean
    intro p hp
    rcases hps p hp with hreads | hkind
    · rw [Clean, if_pos hreads]
      trivial
    · exact h p hkind

def foreignPackage : Sent where
  operation := .initStructures
  buffer := intBytes (opCode .endStructures)++intBytes 0
  size := by decide +kernel

/-- The kernel's loop in memory ends a process for a payload it should not look at. -/
theorem foreign_payload_handled :
    handled (loopOf .attendKernel) (streamOf [foreignPackage]) = [(opCode .endStructures, [])] ∧
    [foreignPackage].flatMap (meant (loopOf .attendKernel)) = [] := by
  constructor
  · decide +kernel
  · decide +kernel

end Geck.PackageStream
