import HostAbi.Binary.Section

/-!
# Module files

A module file is a header and then sections up to its end, in any order. Reading one collects its
interface and gives a verdict: the file is fine, or it has a fault at some offset, or it is a
component, of which nothing is read. The interface holds what was listed before the fault.
-/

namespace HostAbi

/-- What follows a header. -/
inductive Layer where
  | coreModule
  | component
  deriving DecidableEq

namespace Reader

/-- The bytes that every module file begins with. -/
def magic : List UInt8 := [0x00, 0x61, 0x73, 0x6d]

/-- The number that bytes spell, lowest byte first. -/
def littleEndian (bs : List UInt8) : Nat := bs.foldr (fun b n => b.toNat + 0x100 * n) 0

/-- The magic bytes and a version, of which the high half names the layer. -/
def header : Reader Layer := do
  let start ← position
  let found ← take 4
  if found ≠ magic then fail (.badMagic found) start
  else
    let start ← position
    let version := littleEndian (← take 4)
    if version < 0x10000 then return .coreModule
    else if version < 0x20000 then return .component
    else fail (.unknownVersion version) start

end Reader

/-- What the sections add to an interface, and the fault that ends them. -/
def readSections (c : Cursor) (found : Interface) : Interface × Option Fault :=
  if c.rest.isEmpty then (found, none)
  else
    match h : readSection c with
    -- What is found is sorted in the end, so the latest may stand first.
    | (more, .error f) => (more ++ found, some f)
    | (more, .ok c') =>
      have := readSection_length_lt h
      readSections c' (more ++ found)
termination_by c.rest.length

/-- What is to be said of a file: nothing, its first fault, or that it is a component. -/
inductive Verdict where
  | ok
  | faulty (f : Fault)
  | component
  deriving DecidableEq

/-- What is known of a module file once it has been read. -/
structure ModuleReading where
  interface : Interface
  verdict : Verdict
  deriving DecidableEq

/-- Reads a module file up to its end or its first fault, which is the verdict. What was listed
until then is kept and sorted. Of a component nothing is read but the header. -/
def readModule (bytes : List UInt8) : ModuleReading :=
  match Reader.header ⟨bytes, 0⟩ with
  | .error f => ⟨{}, .faulty f⟩
  | .ok (.component, _) => ⟨{}, .component⟩
  | .ok (.coreModule, c) =>
    let (found, fault) := readSections c {}
    ⟨found.sorted, fault.elim .ok .faulty⟩

section Header

variable {bytes : List UInt8} {c : Cursor}

theorem readModule_of_error {f : Fault} (h : Reader.header ⟨bytes, 0⟩ = .error f) :
    readModule bytes = ⟨{}, .faulty f⟩ := by
  simp only [readModule, h]

theorem readModule_of_component (h : Reader.header ⟨bytes, 0⟩ = .ok (.component, c)) :
    readModule bytes = ⟨{}, .component⟩ := by
  simp only [readModule, h]

theorem readModule_of_coreModule (h : Reader.header ⟨bytes, 0⟩ = .ok (.coreModule, c)) :
    readModule bytes =
      ⟨(readSections c {}).1.sorted, (readSections c {}).2.elim .ok .faulty⟩ := by
  simp only [readModule, h]

/-- A component is told by its header. -/
theorem header_of_component (h : (readModule bytes).verdict = .component) :
    ∃ c, Reader.header ⟨bytes, 0⟩ = .ok (.component, c) := by
  rcases hh : Reader.header ⟨bytes, 0⟩ with f | ⟨_ | _, c⟩
  · rw [readModule_of_error hh] at h
    cases h
  · rw [readModule_of_coreModule hh] at h
    rcases hs : (readSections c {}).2 with _ | f <;> rw [hs] at h <;> cases h
  · exact ⟨c, rfl⟩

/-- A fault is one of the header or, if that is fine, one of the sections behind it. -/
theorem header_of_faulty {f : Fault} (h : (readModule bytes).verdict = .faulty f) :
    Reader.header ⟨bytes, 0⟩ = .error f ∨
      ∃ c, Reader.header ⟨bytes, 0⟩ = .ok (.coreModule, c) ∧ (readSections c {}).2 = some f := by
  rcases hh : Reader.header ⟨bytes, 0⟩ with f' | ⟨_ | _, c⟩
  · rw [readModule_of_error hh] at h
    cases h
    exact .inl rfl
  · rw [readModule_of_coreModule hh] at h
    refine .inr ⟨c, rfl, ?_⟩
    rcases hs : (readSections c {}).2 with _ | f' <;> rw [hs] at h <;> cases h
    rfl
  · rw [readModule_of_component hh] at h
    cases h

end Header

end HostAbi
