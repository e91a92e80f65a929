import HostAbi.Proofs.Composition

/-!
# Windows of a file

A reader that starts inside a window of the file stays inside it, and a fault that stops it stands
inside it too (`Inside`). The body of a section is a window of the file, and the sections are one
that starts behind the header. So every fault stands in the file, and one that the header is not to
blame for stands behind the header (`readModule_fault_in`). Some faults are put one byte before a
place, which is inside because a byte was read before it.
-/

namespace HostAbi

variable {lo hi : Nat}

/-- Whether what is still to be read starts inside a window of the file and ends with it. -/
structure Cursor.In (lo hi : Nat) (c : Cursor) : Prop where
  start : lo ≤ c.pos
  finish : c.pos + c.rest.length = hi

/-- Whether the offset of a fault lies between two places, both of which count. -/
def Fault.In (lo hi : Nat) (f : Fault) : Prop := lo ≤ f.offset ∧ f.offset ≤ hi

theorem Fault.In.mono {hi' : Nat} {f : Fault} (h : f.In lo hi) (hle : hi ≤ hi') : f.In lo hi' :=
  ⟨h.1, Nat.le_trans h.2 hle⟩

theorem Cursor.In.pos_le {c : Cursor} (hc : c.In lo hi) : c.pos ≤ hi :=
  Nat.le.intro hc.finish

/-- Whether reading came to a place inside a window. -/
def Ends (lo hi : Nat) : Except Fault Cursor → Prop
  | .ok c => c.In lo hi
  | .error f => f.In lo hi

namespace Reader

variable {α β : Type}

/-- What a reader leaves, or the fault that stops it. -/
def stop (r : Reader α) (c : Cursor) : Except Fault Cursor := (r c).map (·.2)

theorem stop_of_ok {r : Reader α} {c c' : Cursor} {a : α} (h : r c = .ok (a, c')) :
    r.stop c = .ok c' := by
  rw [stop, h]
  rfl

theorem stop_of_error {r : Reader α} {c : Cursor} {f : Fault} (h : r c = .error f) :
    r.stop c = .error f := by
  rw [stop, h]
  rfl

/-- Whether a reader that starts inside a window comes to a place inside it. -/
def Inside (lo hi : Nat) (r : Reader α) : Prop := ∀ c, c.In lo hi → Ends lo hi (r.stop c)

theorem Inside.ok {r : Reader α} (hr : Inside lo hi r) {c c' : Cursor} {a : α} (hc : c.In lo hi)
    (h : r c = .ok (a, c')) : c'.In lo hi := by
  have hend := hr c hc
  rwa [stop_of_ok h] at hend

theorem Inside.error {r : Reader α} (hr : Inside lo hi r) {c : Cursor} {f : Fault}
    (hc : c.In lo hi) (h : r c = .error f) : f.In lo hi := by
  have hend := hr c hc
  rwa [stop_of_error h] at hend

theorem Inside.of_fault? {r : Reader α} (hr : Inside lo hi r) {c : Cursor} {f : Fault}
    (hc : c.In lo hi) (h : r.fault? c = some f) : f.In lo hi := by
  unfold fault? at h
  rcases hrc : r c with f' | p <;> rw [hrc] at h <;> cases h
  exact hr.error hc hrc

/-- Of the second reader only matters what it does where the first one stops. -/
theorem stop_bind {r : Reader α} {f : α → Reader β} {c : Cursor} (hr : Ends lo hi (r.stop c))
    (hf : ∀ a c', r c = .ok (a, c') → c'.In lo hi → Ends lo hi ((f a).stop c')) :
    Ends lo hi ((r >>= f).stop c) := by
  rcases hrc : r c with e | ⟨a, c'⟩
  · rw [stop_of_error (bind_eq_error.2 (.inl hrc))]
    rwa [stop_of_error hrc] at hr
  · have hbind : (r >>= f).stop c = (f a).stop c' := by
      show Except.map _ (Except.bind (r c) fun p => f p.1 p.2) = _
      rw [hrc]
      rfl
    rw [stop_of_ok hrc] at hr
    rw [hbind]
    exact hf a c' hrc hr

theorem Inside.bind {r : Reader α} {f : α → Reader β} (hr : Inside lo hi r)
    (hf : ∀ a, Inside lo hi (f a)) : Inside lo hi (r >>= f) := fun c hc =>
  stop_bind (hr c hc) fun a c' _ hc' => hf a c' hc'

theorem inside_pure (a : α) : Inside lo hi (pure a) := fun _ hc => hc

theorem inside_fail (cause : Cause) {offset : Nat} (h : lo ≤ offset ∧ offset ≤ hi) :
    Inside lo hi (fail cause offset : Reader α) := fun _ _ => h

/-- A place that is asked for is one inside the window. -/
theorem Inside.position {f : Nat → Reader β} (hf : ∀ p, lo ≤ p ∧ p ≤ hi → Inside lo hi (f p)) :
    Inside lo hi (Reader.position >>= f) := fun c hc => hf c.pos ⟨hc.start, hc.pos_le⟩ c hc

theorem Inside.ite {r s : Reader α} (p : Prop) [Decidable p] (hr : Inside lo hi r)
    (hs : Inside lo hi s) : Inside lo hi (if p then r else s) := by
  split
  · exact hr
  · exact hs

theorem inside_peek : Inside lo hi peek := by
  rintro ⟨_ | ⟨b, rest⟩, pos⟩ hc
  · exact ⟨hc.start, hc.pos_le⟩
  · exact hc

theorem inside_byte : Inside lo hi byte := by
  rintro ⟨_ | ⟨b, rest⟩, pos⟩ hc
  · exact ⟨hc.start, hc.pos_le⟩
  · refine ⟨Nat.le_succ_of_le hc.start, ?_⟩
    have hfinish := hc.finish
    simp only [List.length_cons] at hfinish ⊢
    omega

theorem inside_take (n : Nat) : Inside lo hi (take n) := by
  intro c hc
  rcases h : take n c with f | ⟨bs, c'⟩
  · rw [stop_of_error h, (take_eq_error.1 h).2]
    exact ⟨hc.start, hc.pos_le⟩
  · obtain ⟨hrest, hlen, hpos⟩ := take_eq_ok.1 h
    have hfinish := hc.finish
    rw [hrest, List.length_append] at hfinish
    rw [stop_of_ok h]
    exact ⟨hpos ▸ Nat.le_add_right_of_le hc.start, by omega⟩

theorem inside_unsigned (i : VarInt) (bound : UInt8) :
    ∀ more, Inside lo hi (unsigned i bound more)
  | 0 => .position fun _ hp => inside_byte.bind fun _ =>
    .ite _ (inside_pure _) (.ite _ (inside_fail _ hp) (inside_fail _ hp))
  | more + 1 => inside_byte.bind fun _ =>
    .ite _ (inside_pure _) ((inside_unsigned i bound more).bind fun _ => inside_pure _)

theorem inside_u32 : Inside lo hi u32 := inside_unsigned _ _ _

theorem inside_u64 : Inside lo hi u64 := inside_unsigned _ _ _

theorem inside_signed : ∀ more, Inside lo hi (signed more)
  | 0 => .position fun _ hp => inside_byte.bind fun _ => .ite _ (inside_pure _) (inside_fail _ hp)
  | more + 1 => inside_byte.bind fun _ => .ite _ (inside_pure _)
    (.ite _ (inside_pure _) ((inside_signed more).bind fun _ => inside_pure _))

theorem inside_s33 : Inside lo hi s33 := inside_signed _

theorem inside_byteBelow (bound : UInt8) (cause : Cause) : Inside lo hi (byteBelow bound cause) :=
  .position fun _ hp => inside_byte.bind fun _ => .ite _ (inside_pure _) (inside_fail _ hp)

/-! ## Types -/

theorem inside_abstractHeapType : Inside lo hi abstractHeapType :=
  .position fun _ hp => inside_byte.bind fun _ => .ite _ (inside_pure _) (inside_fail _ hp)

/-- Renaming a bad type leaves the fault where it is. -/
theorem Inside.inForm {r : Reader Unit} (form : TypeForm) (hr : Inside lo hi r) :
    Inside lo hi (Reader.inForm form r) := by
  intro c hc
  have hend := hr c hc
  unfold stop Reader.inForm
  rcases hrc : r c with ⟨cause, offset⟩ | ⟨u, c'⟩
  · rw [stop_of_error hrc] at hend
    cases cause <;> exact hend
  · rwa [stop_of_ok hrc] at hend

theorem inside_sharedHeapType : Inside lo hi sharedHeapType :=
  inside_peek.bind fun _ => .ite _ (inside_byte.bind fun _ => inside_abstractHeapType)
    (inside_abstractHeapType.inForm .heap)

/-- An index that is too large is a fault behind it, which may be the end of the window. -/
theorem inside_heapType : Inside lo hi heapType := by
  intro c hc
  have hend := inside_s33 c hc
  rcases hs : s33 c with f | ⟨n, c'⟩
  · rw [stop_of_error (heapType_of_error hs)]
    rwa [stop_of_error hs] at hend
  · rw [stop_of_ok hs] at hend
    unfold stop
    rw [heapType_of_ok hs]
    split_ifs
    · exact hend
    · exact ⟨hend.start, hend.pos_le⟩
    · exact inside_sharedHeapType c hc

theorem inside_refType : Inside lo hi refType :=
  inside_peek.bind fun _ => .ite _ (inside_byte.bind fun _ => inside_heapType)
    (inside_heapType.inForm .reference)

theorem inside_valueType : Inside lo hi valueType :=
  inside_peek.bind fun _ => .ite _ (inside_byte.bind fun _ => inside_pure _)
    (inside_refType.inForm .value)

/-! ## Entries -/

theorem u32_pos_lt {c c' : Cursor} {n : Nat} (h : u32 c = .ok (n, c')) : c.pos < c'.pos := by
  obtain ⟨bs, hform, -, hpos⟩ := (reads_u32 _ _ _).1 h
  have hlen : 0 < bs.length := by cases hform <;> exact Nat.succ_pos _
  omega

/-- The byte before the text of a name is one of its length, and the last byte of the text is one
of the text or, if there is none, of its length. -/
theorem inside_name : Inside lo hi name := by
  intro c hc
  refine stop_bind (inside_u32 c hc) fun n c₁ hn hc₁ => ?_
  have hpos := u32_pos_lt hn
  have hstart := hc.start
  have hend := hc₁.pos_le
  show Ends lo hi (Reader.stop (if maxNameLength < n then fail .stringTooLong (c₁.pos - 1)
    else take n >>= _) c₁)
  split
  · exact inside_fail _ ⟨by omega, by omega⟩ c₁ hc₁
  · refine stop_bind (inside_take n c₁ hc₁) fun bs c₂ ht hc₂ => ?_
    have htake := (take_eq_ok.1 ht).2.2
    have hend := hc₂.pos_le
    rcases Utf8.decode? bs with _ | s
    · exact inside_fail _ ⟨by omega, by omega⟩ c₂ hc₂
    · exact hc₂

theorem inside_externalKind : Inside lo hi externalKind := by
  refine .position fun start hp => inside_byte.bind fun b => ?_
  rcases ExternalKind.ofCode? b with _ | kind
  · exact inside_fail _ hp
  · exact inside_pure kind

theorem inside_size (flags : UInt8) : Inside lo hi (size flags) := .ite _ inside_u32 inside_u64

theorem inside_limits (flags : UInt8) : Inside lo hi (limits flags) :=
  (inside_size flags).bind fun _ => .ite _ (inside_pure _)
    ((inside_size flags).bind fun _ => inside_pure _)

theorem inside_description : ∀ kind, Inside lo hi (description kind)
  | .func => inside_u32.bind fun _ => inside_pure _
  | .table => inside_refType.bind fun _ => (inside_byteBelow _ _).bind inside_limits
  | .memory => (inside_byteBelow _ _).bind fun flags => (inside_limits flags).bind fun _ =>
    .ite _ (inside_pure _) (inside_u32.bind fun _ => inside_pure _)
  | .global => inside_valueType.bind fun _ => (inside_byteBelow _ _).bind fun _ => inside_pure _
  | .tag => (inside_byteBelow _ _).bind fun _ => inside_u32.bind fun _ => inside_pure _

theorem inside_importEntry : Inside lo hi importEntry :=
  inside_name.bind fun _ => inside_name.bind fun _ => inside_externalKind.bind fun kind =>
    (inside_description kind).bind fun _ => inside_pure _

theorem inside_exportEntry : Inside lo hi exportEntry :=
  inside_name.bind fun _ => inside_externalKind.bind fun _ => inside_u32.bind fun _ =>
    inside_pure _

/-! ## Sections -/

theorem inside_finish (leftover : Cause) : Inside lo hi (finish leftover) := by
  intro c hc
  unfold stop finish
  split
  · exact hc
  · exact ⟨hc.start, hc.pos_le⟩

theorem inside_loneNumber (leftover : Cause) : Inside lo hi (loneNumber leftover) :=
  inside_u32.bind fun _ => inside_finish leftover

/-- A length that runs out is a fault where what it counts started. -/
theorem inside_remaining (length : Nat) {start : Nat} (h : lo ≤ start ∧ start ≤ hi) :
    Inside lo hi (remaining length start) :=
  .position fun _ _ => .ite _ (inside_fail _ h) (inside_pure _)

theorem inside_functions : ∀ n left, Inside lo hi (functions n left)
  | 0, _ => .ite _ (inside_pure _) (.position fun _ hp => inside_fail _ hp)
  | n + 1, left => .position fun _ hp => inside_u32.bind fun _ => (inside_take _).bind fun _ =>
    (inside_remaining left hp).bind fun _ => inside_functions n _

theorem inside_code (length : Nat) : Inside lo hi (code length) :=
  .position fun _ hp => inside_u32.bind fun _ => (inside_remaining length hp).bind fun _ =>
    inside_functions _ _

theorem inside_sectionHead : Inside lo hi sectionHead :=
  .position fun _ hp => inside_byte.bind fun _ =>
    .ite _ (inside_u32.bind fun _ => inside_pure _) (inside_fail _ hp)

theorem inside_header : Inside lo hi header :=
  .position fun _ hp => (inside_take 4).bind fun _ => .ite _ (inside_fail _ hp)
    (.position fun _ hp => (inside_take 4).bind fun _ => .ite _ (inside_pure _)
      (.ite _ (inside_pure _) (inside_fail _ hp)))

theorem entries_ends {entry : Reader α} (he : Inside lo hi entry) :
    ∀ (n : Nat) (found : List α) (c : Cursor), c.In lo hi → Ends lo hi (entries entry n found c).2
  | 0, _, _, hc => hc
  | n + 1, found, c, hc => by
    rcases h : entry c with f | ⟨a, c'⟩
    · simp only [entries, h]
      exact he.error hc h
    · rw [entries_cons h]
      exact entries_ends he n _ c' (he.ok hc h)

theorem listing_fault_in {entry : Reader α} (he : Inside lo hi entry) {body : Cursor} {f : Fault}
    (hb : body.In lo hi) (h : (listing entry body).2 = some f) : f.In lo hi := by
  unfold listing at h
  rcases hn : u32 body with f' | ⟨n, c⟩ <;> simp only [hn] at h
  · cases h
    exact inside_u32.error hb hn
  · have hend := entries_ends he n [] c (inside_u32.ok hb hn)
    rcases hl : entries entry n [] c with ⟨found, f' | c'⟩ <;> simp only [hl] at h hend
    · cases h
      exact hend
    · exact (inside_finish _).of_fault? hend h

end Reader

open Reader

namespace SectionKind

theorem readBody_fault_in {body : Cursor} {f : Fault} (hb : body.In lo hi) :
    ∀ kind : SectionKind, (kind.readBody body).2 = some f → f.In lo hi
  | .custom, h => inside_name.of_fault? hb h
  | .counted, h => inside_u32.of_fault? hb h
  | .lone leftover, h => (inside_loneNumber leftover).of_fault? hb h
  | .imports, h => listing_fault_in inside_importEntry hb h
  | .exports, h => listing_fault_in inside_exportEntry hb h

/-- The body is a window inside the one that the section starts in. -/
theorem read_ends (length : Nat) {c : Cursor} (hc : c.In lo hi) (kind : SectionKind) :
    Ends lo hi (kind.read length c).2 := by
  by_cases hk : kind = .code
  · rw [hk]
    exact inside_code length c hc
  · rcases h : kind.read length c with ⟨found, f | c'⟩
    · rcases (read_eq_error hk).1 h with ⟨ht, -⟩ | ⟨body, c', ht, hb⟩
      · exact (inside_take length).error hc ht
      · have hbody : (Cursor.mk body c.pos).In lo (c.pos + body.length) := ⟨hc.start, rfl⟩
        have hfault := readBody_fault_in (f := f) hbody kind (by rw [hb])
        obtain ⟨-, hlen, hpos⟩ := take_eq_ok.1 ht
        have hend := ((inside_take length).ok hc ht).pos_le
        exact hfault.mono (by omega)
    · obtain ⟨body, ht, -⟩ := (read_body_eq_ok hk).1 h
      exact (inside_take length).ok hc ht

end SectionKind

theorem readSection_ends {c : Cursor} (hc : c.In lo hi) : Ends lo hi (readSection c).2 := by
  rcases hs : sectionHead c with f | ⟨⟨id, length⟩, c'⟩
  · rw [readSection_of_fault hs]
    exact inside_sectionHead.error hc hs
  · rw [readSection_of_head hs]
    exact SectionKind.read_ends length (inside_sectionHead.ok hc hs) _

theorem readSections_fault_in {c : Cursor} {found : Interface} {f : Fault} (hc : c.In lo hi)
    (h : (readSections c found).2 = some f) : f.In lo hi := by
  fun_induction readSections c found with
  | case1 => cases h
  | case2 c found _ more f' hsec =>
    cases h
    have hend := readSection_ends hc
    rwa [hsec] at hend
  | case3 c found _ more c' hsec _ ih =>
    have hend := readSection_ends hc
    rw [hsec] at hend
    exact ih hend h

/-- The file as it is before anything was read of it. -/
theorem in_file (bytes : List UInt8) : (Cursor.mk bytes 0).In 0 bytes.length :=
  ⟨Nat.le_refl 0, Nat.zero_add _⟩

theorem in_of_header {bytes : List UInt8} {c : Cursor}
    (h : Reader.header ⟨bytes, 0⟩ = .ok (.coreModule, c)) : c.In 8 bytes.length := by
  obtain ⟨header, hform, hbytes, hpos⟩ := header_eq_coreModule.1 h
  have hlen := length_header hform
  refine ⟨by omega, ?_⟩
  dsimp only at hbytes hpos
  rw [hbytes, List.length_append]
  omega

/-- A fault stands in the file or at its end, and behind the header if that is fine. -/
theorem readModule_fault_in {bytes : List UInt8} {f : Fault}
    (h : (readModule bytes).verdict = .faulty f) :
    f.In 0 bytes.length ∧
      ∀ c, Reader.header ⟨bytes, 0⟩ = .ok (.coreModule, c) → f.In 8 bytes.length := by
  rcases header_of_faulty h with hh | ⟨c, hh, hs⟩
  · refine ⟨inside_header.error (in_file bytes) hh, fun c hc => ?_⟩
    rw [hh] at hc
    cases hc
  · have hf := readSections_fault_in (in_of_header hh) hs
    exact ⟨⟨Nat.zero_le _, hf.2⟩, fun _ _ => hf⟩

end HostAbi
