import HostAbi.Binary.Entry

/-!
# Sections of a module file

A section is an id, a length and a body of that length. Import and export sections list entries;
what a section lists before a fault is kept. Of the other sections only the first few bytes are
looked at, and only the code section is not taken as a whole: its functions are read from the file
and have to fill its length. A section read without a fault leaves fewer bytes than there were
(`readSection_length_lt`).
-/

namespace HostAbi

namespace Reader

variable {α : Type}

/-- The fault that stops a reader. -/
def fault? (r : Reader α) (c : Cursor) : Option Fault :=
  match r c with
  | .error f => some f
  | .ok _ => none

/-- Faults where bytes are left over. -/
def finish (leftover : Cause) : Reader Unit := fun c =>
  if c.rest.isEmpty then .ok ((), c) else .error ⟨leftover, c.pos⟩

/-- Up to `n` entries, in front of those in `found` and the latest first. -/
def entries (entry : Reader α) :
    (n : Nat) → (found : List α) → Cursor → List α × Except Fault Cursor
  | 0, found, c => (found, .ok c)
  | n + 1, found, c =>
    match entry c with
    | .error f => (found, .error f)
    | .ok (a, c') => entries entry n (a :: found) c'

/-- A counted list of entries that has to fill the body, the latest first. -/
def listing (entry : Reader α) (body : Cursor) : List α × Option Fault :=
  match u32 body with
  | .error f => ([], some f)
  | .ok (n, c) =>
    match entries entry n [] c with
    | (found, .error f) => (found, some f)
    | (found, .ok c') => (found, fault? (finish .sectionSizeMismatch) c')

/-- A single number that has to fill the body. -/
def loneNumber (leftover : Cause) : Reader Unit := do
  let _ ← u32
  finish leftover

/-- What is left of a length after what was read since `start`. -/
def remaining (length start : Nat) : Reader Nat := do
  let now ← position
  if length < now - start then fail .unexpectedEnd start else return length - (now - start)

/-- The `n` functions that remain of a code section with `left` bytes to go. -/
def functions : (n left : Nat) → Reader Unit
  | 0, left => do
    if left = 0 then return else fail .codeLeftover (← position)
  | n + 1, left => do
    let start ← position
    let size ← u32
    let _ ← take size
    functions n (← remaining left start)

/-- The count of functions and the functions of a code section of a given length. -/
def code (length : Nat) : Reader Unit := do
  let start ← position
  let n ← u32
  functions n (← remaining length start)

/-- The id and the length of a section. -/
def sectionHead : Reader (UInt8 × Nat) := do
  let start ← position
  let id ← byte
  if id < 0x80 then return (id, ← u32) else fail .malformedSectionId start

end Reader

/-- Sections by what is read of them. -/
inductive SectionKind where
  | custom
  | counted
  | imports
  | exports
  | lone (leftover : Cause)
  | code
  | skipped
  deriving DecidableEq

namespace SectionKind

/-- What is read of a section with an id. An id without a meaning is skipped with its section. -/
def ofId (id : UInt8) : SectionKind :=
  if id = 0 then .custom
  else if id = 2 then .imports
  else if id = 7 then .exports
  else if id = 8 then .lone .startLeftover
  else if id = 10 then .code
  else if id = 12 then .lone .dataCountLeftover
  else if id ∈ [1, 3, 4, 5, 6, 9, 11, 13] then .counted
  else .skipped

/-- What the body of a section adds to the interface, and the fault that ends it. -/
def readBody (body : Cursor) : SectionKind → Interface × Option Fault
  | .custom => ({}, Reader.name.fault? body)
  | .counted => ({}, Reader.u32.fault? body)
  | .lone leftover => ({}, (Reader.loneNumber leftover).fault? body)
  | .code | .skipped => ({}, none)
  | .imports =>
    let (found, fault) := Reader.listing .importEntry body
    ({ imports := found }, fault)
  | .exports =>
    let (found, fault) := Reader.listing .exportEntry body
    ({ exports := found }, fault)

/-- What a section of a given length adds to the interface, and what follows it. -/
def read (length : Nat) (c : Cursor) (kind : SectionKind) : Interface × Except Fault Cursor :=
  if kind = .code then ({}, (Reader.code length c).map (·.2))
  else
    match Reader.take length c with
    | .error f => ({}, .error f)
    | .ok (body, c') =>
      match kind.readBody ⟨body, c.pos⟩ with
      | (found, some f) => (found, .error f)
      | (found, none) => (found, .ok c')

variable {kind : SectionKind} {length : Nat} {c : Cursor} {found : Interface} {f : Fault}

theorem read_code_eq_error : SectionKind.code.read length c = (found, .error f) ↔
    Reader.code length c = .error f ∧ found = {} := by
  rw [read, if_pos rfl]
  rcases Reader.code length c with f' | ⟨u, c'⟩ <;> simp [Except.map, eq_comm, and_comm]

/-- A section that is no code section has a fault where its body is not there or has one. -/
theorem read_eq_error (hk : kind ≠ .code) : kind.read length c = (found, .error f) ↔
    Reader.take length c = .error f ∧ found = {} ∨
      ∃ body c', Reader.take length c = .ok (body, c') ∧
        kind.readBody ⟨body, c.pos⟩ = (found, some f) := by
  rw [read, if_neg hk]
  rcases Reader.take length c with f' | ⟨body, c'⟩
  · simp [eq_comm, and_comm]
  · rcases hb : kind.readBody ⟨body, c.pos⟩ with ⟨found', _ | f'⟩ <;> simp [hb]

/-- A section that is no code section is read if its body is there and has no fault. -/
theorem read_body_eq_ok {c' : Cursor} (hk : kind ≠ .code) :
    kind.read length c = (found, .ok c') ↔ ∃ body, Reader.take length c = .ok (body, c') ∧
      kind.readBody ⟨body, c.pos⟩ = (found, none) := by
  rw [read, if_neg hk]
  rcases Reader.take length c with f | ⟨body, c₁⟩
  · simp
  · rcases hb : kind.readBody ⟨body, c.pos⟩ with ⟨found', _ | f⟩
    · simp only [hb, Prod.mk.injEq, Except.ok.injEq]
      constructor
      · rintro ⟨rfl, rfl⟩
        exact ⟨body, ⟨rfl, rfl⟩, hb⟩
      · rintro ⟨_, ⟨rfl, rfl⟩, hb'⟩
        rw [hb] at hb'
        exact ⟨(Prod.mk.inj hb').1, rfl⟩
    · simp [hb]

end SectionKind

/-- What the next section adds to the interface, and what follows it. -/
def readSection (c : Cursor) : Interface × Except Fault Cursor :=
  match Reader.sectionHead c with
  | .error f => ({}, .error f)
  | .ok ((id, length), c') => (SectionKind.ofId id).read length c'

theorem readSection_of_head {c c' : Cursor} {id : UInt8} {length : Nat}
    (h : Reader.sectionHead c = .ok ((id, length), c')) :
    readSection c = (SectionKind.ofId id).read length c' := by
  simp only [readSection, h]

theorem readSection_of_fault {c : Cursor} {f : Fault} (h : Reader.sectionHead c = .error f) :
    readSection c = ({}, .error f) := by
  simp only [readSection, h]

namespace Reader

theorem advances_remaining (length start : Nat) : (remaining length start).Advances := by
  refine advances_position.bind fun _ => ?_
  split
  · exact advances_fail _ _
  · exact advances_pure _

theorem advances_functions : ∀ n left, (functions n left).Advances
  | 0, left => by
    unfold functions
    split
    · exact advances_pure _
    · exact advances_position.bind fun _ => advances_fail _ _
  | n + 1, left =>
    advances_position.bind fun _ => advances_u32.bind fun _ => (advances_take _).bind fun _ =>
      (advances_remaining _ _).bind fun _ => advances_functions n _

theorem advances_code (length : Nat) : (code length).Advances :=
  advances_position.bind fun _ => advances_u32.bind fun _ =>
    (advances_remaining _ _).bind fun _ => advances_functions _ _

theorem sectionHead_length_lt {c c' : Cursor} {p : UInt8 × Nat}
    (h : sectionHead c = .ok (p, c')) : c'.rest.length < c.rest.length := by
  obtain ⟨_, c₁, h₁, h⟩ := bind_eq_ok.1 h
  obtain ⟨rfl, rfl⟩ : c.pos = _ ∧ c = c₁ := by simpa [position] using h₁
  obtain ⟨id, c₂, h₂, h⟩ := bind_eq_ok.1 h
  have hc := (byte_eq_ok.1 h₂).1
  split at h
  · obtain ⟨n, c₃, h₃, h⟩ := bind_eq_ok.1 h
    have := advances_u32.length_le h₃
    have h : Except.ok ((id, n), c₃) = Except.ok (p, c') := h
    obtain ⟨-, rfl⟩ := Prod.mk.inj (Except.ok.inj h)
    simp only [hc, List.length_cons]
    omega
  · simp [fail] at h

end Reader

theorem SectionKind.read_length_le {kind : SectionKind} {length : Nat} {c c' : Cursor}
    {found : Interface} (h : kind.read length c = (found, .ok c')) :
    c'.rest.length ≤ c.rest.length := by
  unfold SectionKind.read at h
  split at h
  · obtain ⟨-, h⟩ := Prod.mk.inj h
    rcases hc : Reader.code length c with f | ⟨u, c₁⟩ <;> rw [hc] at h <;> simp [Except.map] at h
    subst h
    exact (Reader.advances_code length).length_le hc
  · split at h
    · simp at h
    · rename_i hc
      split at h
      · simp at h
      · simp only [Prod.mk.injEq, Except.ok.injEq] at h
        obtain ⟨-, rfl⟩ := h
        exact (Reader.advances_take length).length_le hc

theorem readSection_length_lt {c c' : Cursor} {found : Interface}
    (h : readSection c = (found, .ok c')) : c'.rest.length < c.rest.length := by
  unfold readSection at h
  split at h
  · simp at h
  · rename_i hc
    exact Nat.lt_of_le_of_lt (SectionKind.read_length_le h) (Reader.sectionHead_length_lt hc)

end HostAbi
