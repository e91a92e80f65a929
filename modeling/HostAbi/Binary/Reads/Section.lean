import HostAbi.Binary.Reads.Entry
import HostAbi.Interface.Sorted

/-!
# The forms of sections

A list of entries is read to the end of its body exactly if the body is a form of that list
(`listing_eq_none`), and a code section takes exactly the forms of its functions that have its
length (`reads_code`). So a section is read without a fault exactly if it starts what is left, and
what is found in it is what it declares, the other way round (`readSection_eq_ok`).
-/

namespace HostAbi

namespace Reader

variable {α β : Type} {r : Reader α} {G : α → List UInt8 → Prop}

theorem fault?_eq_none {c : Cursor} : r.fault? c = none ↔ ∃ a c', r c = .ok (a, c') := by
  unfold fault?
  rcases r c with f | ⟨a, c'⟩ <;> simp

theorem Reads.fault?_eq_none (hr : r.Reads G) {c : Cursor} :
    r.fault? c = none ↔ ∃ a bs rest, G a bs ∧ c.rest = bs ++ rest := by
  rw [Reader.fault?_eq_none]
  constructor
  · rintro ⟨a, c', h⟩
    obtain ⟨bs, g, e, -⟩ := (hr _ _ _).1 h
    exact ⟨a, bs, _, g, e⟩
  · rintro ⟨a, bs, rest, g, e⟩
    exact ⟨a, ⟨rest, c.pos + bs.length⟩, (hr _ _ _).2 ⟨bs, g, e, rfl⟩⟩

theorem finish_eq_ok {leftover : Cause} {c c' : Cursor} {u : Unit} :
    finish leftover c = .ok (u, c') ↔ c.rest = [] ∧ c' = c := by
  rcases c with ⟨_ | ⟨b, rest⟩, pos⟩ <;> simp [finish, eq_comm]

theorem fault?_finish {leftover : Cause} {c : Cursor} :
    (finish leftover).fault? c = none ↔ c.rest = [] := by
  rw [Reader.fault?_eq_none]
  constructor
  · rintro ⟨_, _, h⟩
    exact (finish_eq_ok.1 h).1
  · intro h
    exact ⟨(), c, finish_eq_ok.2 ⟨h, rfl⟩⟩

theorem entries_eq_ok {entry : Reader α} (he : entry.Reads G) :
    ∀ {n : Nat} {found found' : List α} {c c' : Cursor},
      entries entry n found c = (found', .ok c') ↔ ∃ as bs, as.length = n ∧
        Grammar.Sequence G as bs ∧ found' = as.reverse ++ found ∧ c.rest = bs ++ c'.rest ∧
          c'.pos = c.pos + bs.length
  | 0, found, found', ⟨rest, pos⟩, ⟨rest', pos'⟩ => by
    simp only [entries, Prod.mk.injEq, Except.ok.injEq, Cursor.mk.injEq]
    constructor
    · rintro ⟨rfl, rfl, rfl⟩
      exact ⟨[], [], rfl, .nil, by simp⟩
    · rintro ⟨as, bs, h, hs, rfl, rfl, rfl⟩
      obtain rfl := List.eq_nil_of_length_eq_zero h
      cases hs
      simp
  | n + 1, found, found', c, c' => by
    rcases hc : entry c with f | ⟨a, c₁⟩
    · simp only [entries, hc]
      refine iff_of_false (by simp) ?_
      rintro ⟨as, bs, h, hs, -, e, -⟩
      cases hs with
      | nil => simp at h
      | @cons a as bs bs' g =>
        have := (he c a ⟨bs' ++ c'.rest, c.pos + bs.length⟩).2 ⟨bs, g, by simp [e], rfl⟩
        rw [hc] at this
        cases this
    · simp only [entries, hc, entries_eq_ok he]
      obtain ⟨bs₁, g₁, e₁, p₁⟩ := (he _ _ _).1 hc
      constructor
      · rintro ⟨as, bs, rfl, hs, rfl, e, p⟩
        exact ⟨a :: as, bs₁ ++ bs, rfl, .cons g₁ hs, by simp, by simp [e₁, e],
          by simp [p, p₁, Nat.add_assoc]⟩
      · rintro ⟨as, bs, h, hs, rfl, e, p⟩
        cases hs with
        | nil => simp at h
        | @cons a' as bs bs' g hs =>
          have := (he c a' ⟨bs' ++ c'.rest, c.pos + bs.length⟩).2 ⟨bs, g, by simp [e], rfl⟩
          rw [hc] at this
          obtain ⟨rfl, rfl⟩ : a = a' ∧ c₁ = _ := by simpa using this
          exact ⟨as, bs', by simpa using h, hs, by simp, rfl, by simp [p, Nat.add_assoc]⟩

theorem listing_eq_none {entry : Reader α} (he : entry.Reads G) {found : List α} {body : Cursor} :
    listing entry body = (found, none) ↔ ∃ as, found = as.reverse ∧
      Grammar.Listing G as body.rest := by
  unfold listing Grammar.Listing
  rcases hc : u32 body with f | ⟨n, c₁⟩
  · refine iff_of_false (by simp) ?_
    rintro ⟨as, -, bs₁, bs₂, h, -, e⟩
    have := (reads_u32 body as.length ⟨bs₂, body.pos + bs₁.length⟩).2 ⟨bs₁, h, e, rfl⟩
    rw [hc] at this
    cases this
  · constructor
    · intro h
      dsimp only at h
      split at h
      · simp at h
      · rename_i found' c₂ h₂
        simp only [Prod.mk.injEq, fault?_finish] at h
        obtain ⟨as, bs, rfl, hs, rfl, e, -⟩ := (entries_eq_ok he).1 h₂
        obtain ⟨bs₁, g, e₁, -⟩ := (reads_u32 _ _ _).1 hc
        obtain ⟨rfl, h⟩ := h
        rw [h, List.append_nil] at e
        exact ⟨as, by simp, bs₁, bs, g, hs, by rw [e₁, e]⟩
    · rintro ⟨as, rfl, bs₁, bs₂, h, hs, e⟩
      have := (reads_u32 body as.length ⟨bs₂, body.pos + bs₁.length⟩).2 ⟨bs₁, h, e, rfl⟩
      rw [hc] at this
      obtain ⟨rfl, rfl⟩ : n = as.length ∧ c₁ = _ := by simpa using this
      have : entries entry as.length [] ⟨bs₂, body.pos + bs₁.length⟩ =
          (as.reverse, .ok ⟨[], body.pos + bs₁.length + bs₂.length⟩) :=
        (entries_eq_ok he).2 ⟨as, bs₂, rfl, hs, by simp, by simp, rfl⟩
      simp only [this, Prod.mk.injEq, fault?_finish, and_self]

theorem loneNumber_fault?_eq_none {leftover : Cause} {body : Cursor} :
    (loneNumber leftover).fault? body = none ↔ ∃ n, Grammar.U32 n body.rest := by
  rw [Reader.fault?_eq_none]
  constructor
  · rintro ⟨_, c', h⟩
    obtain ⟨n, c₁, h₁, h₂⟩ := bind_eq_ok.1 h
    obtain ⟨bs, g, e, -⟩ := (reads_u32 _ _ _).1 h₁
    exact ⟨n, by rwa [e, (finish_eq_ok.1 h₂).1, List.append_nil]⟩
  · rintro ⟨n, h⟩
    refine ⟨(), ⟨[], body.pos + body.rest.length⟩, bind_eq_ok.2 ⟨n, _,
      (reads_u32 _ _ _).2 ⟨_, h, (List.append_nil _).symm, rfl⟩, finish_eq_ok.2 ⟨rfl, rfl⟩⟩⟩

theorem remaining_eq_ok {length start left : Nat} {c c' : Cursor} :
    remaining length start c = .ok (left, c') ↔
      c.pos - start ≤ length ∧ left = length - (c.pos - start) ∧ c' = c := by
  show (if length < c.pos - start then fail .unexpectedEnd start
    else (pure (length - (c.pos - start)) : Reader Nat)) c = _ ↔ _
  split
  · simp [fail]
    omega
  · rename_i h
    show Except.ok _ = _ ↔ _
    simp [Nat.not_lt.1 h, eq_comm]

/-- A reader that counts what it takes against a length, and one that is told what is left. -/
theorem Reads.measured {k : α → Nat → Reader β} {H : α → Nat → β → List UInt8 → Prop}
    (hr : r.Reads G) (hk : ∀ a left, (k a left).Reads (H a left)) (length : Nat) :
    (do let start ← Reader.position
        let a ← r
        k a (← remaining length start)).Reads fun b bs => ∃ a bs₁ bs₂, G a bs₁ ∧
      bs₁.length ≤ length ∧ H a (length - bs₁.length) b bs₂ ∧ bs = bs₁ ++ bs₂ := by
  intro c b c'
  show (r >>= fun a => remaining length c.pos >>= fun left => k a left) c = _ ↔ _
  simp only [bind_eq_ok, remaining_eq_ok]
  constructor
  · rintro ⟨a, c₁, h₁, _, _, ⟨hle, rfl, rfl⟩, h₂⟩
    obtain ⟨bs₁, g, e₁, p₁⟩ := (hr _ _ _).1 h₁
    obtain ⟨bs₂, h, e₂, p₂⟩ := (hk _ _ _ _ _).1 h₂
    rw [p₁, Nat.add_sub_cancel_left] at hle h
    exact ⟨_, ⟨a, bs₁, bs₂, g, hle, h, rfl⟩, by simp [e₁, e₂], by simp [p₁, p₂, Nat.add_assoc]⟩
  · rintro ⟨_, ⟨a, bs₁, bs₂, g, hle, h, rfl⟩, e, p⟩
    refine ⟨a, ⟨bs₂ ++ c'.rest, c.pos + bs₁.length⟩, (hr _ _ _).2 ⟨bs₁, g, by simp [e], rfl⟩,
      length - bs₁.length, _, ⟨?_, ?_, rfl⟩, (hk _ _ _ _ _).2 ⟨bs₂, h, rfl, ?_⟩⟩
    · rwa [Nat.add_sub_cancel_left]
    · rw [Nat.add_sub_cancel_left]
    · simp [p, Nat.add_assoc]

theorem reads_function :
    (u32 >>= take).Reads fun body bs => ∃ length, Grammar.U32 body.length length ∧
      bs = length ++ body := by
  refine (reads_u32.bind reads_take).congr fun body bs => ⟨?_, ?_⟩
  · rintro ⟨_, length, _, h, ⟨rfl, rfl⟩, rfl⟩
    exact ⟨length, h, rfl⟩
  · rintro ⟨length, h, rfl⟩
    exact ⟨_, length, body, h, ⟨rfl, rfl⟩, rfl⟩

theorem reads_functions : ∀ n left, (functions n left).Reads fun _ bs =>
    ∃ sizes, sizes.length = n ∧ Grammar.Sequence Grammar.Function sizes bs ∧ bs.length = left
  | 0, left => by
    unfold functions
    refine (Reads.ite (left = 0) (reads_pure ()) (.position fun p => reads_fail _ p)).congr
      fun _ bs => ⟨?_, ?_⟩
    · intro h
      split at h
      · obtain ⟨-, rfl⟩ := h
        exact ⟨[], rfl, .nil, Eq.symm ‹_›⟩
      · exact h.elim
    · rintro ⟨sizes, h, hs, rfl⟩
      obtain rfl := List.eq_nil_of_length_eq_zero h
      cases hs
      exact ⟨rfl, rfl⟩
  | n + 1, left => by
    unfold functions
    simp only [← bind_assoc u32 take]
    refine (reads_function.measured (fun _ left => reads_functions n left) left).congr
      fun _ bs => ⟨?_, ?_⟩
    · rintro ⟨body, _, bs₂, ⟨length, h, rfl⟩, hle, ⟨sizes, rfl, hs, e⟩, rfl⟩
      refine ⟨body.length :: sizes, rfl, .cons ⟨length, body, h, rfl, rfl⟩ hs, ?_⟩
      rw [List.length_append, e]
      omega
    · rintro ⟨sizes, hn, hs, rfl⟩
      cases hs with
      | nil => simp at hn
      | @cons size sizes bs₁ bs₂ h hs =>
        obtain ⟨length, body, h, rfl, rfl⟩ := h
        exact ⟨body, _, bs₂, ⟨length, h, rfl⟩, by simp,
          ⟨sizes, by simpa using hn, hs, by simp [← Nat.add_assoc]⟩, rfl⟩

theorem reads_code (length : Nat) : (code length).Reads fun _ bs =>
    (∃ sizes, Grammar.Listing Grammar.Function sizes bs) ∧ bs.length = length := by
  refine (reads_u32.measured reads_functions length).congr fun _ bs => ⟨?_, ?_⟩
  · rintro ⟨_, bs₁, bs₂, h, hle, ⟨sizes, rfl, hs, e⟩, rfl⟩
    refine ⟨⟨sizes, bs₁, bs₂, h, hs, rfl⟩, ?_⟩
    rw [List.length_append, e]
    omega
  · rintro ⟨⟨sizes, bs₁, bs₂, h, hs, rfl⟩, rfl⟩
    exact ⟨_, bs₁, bs₂, h, by simp, ⟨sizes, rfl, hs, by simp⟩, rfl⟩

theorem reads_sectionHead : sectionHead.Reads fun p bs =>
    p.1 < 0x80 ∧ ∃ length, Grammar.U32 p.2 length ∧ bs = p.1 :: length := by
  unfold sectionHead
  refine (Reads.position fun p => reads_byte.bind fun id =>
    .ite (id < 0x80) (reads_u32.bind fun n => reads_pure (id, n)) (reads_fail _ p)).congr
      fun p bs => ⟨?_, ?_⟩
  · rintro ⟨id, _, _, rfl, h, rfl⟩
    split at h
    · obtain ⟨n, length, _, h, ⟨rfl, rfl⟩, rfl⟩ := h
      exact ⟨‹_›, length, h, by simp⟩
    · exact h.elim
  · rintro ⟨hp, length, h, rfl⟩
    refine ⟨p.1, [p.1], length, rfl, ?_, rfl⟩
    rw [if_pos hp]
    exact ⟨p.2, length, [], h, ⟨rfl, rfl⟩, by simp⟩

end Reader

namespace SectionKind

/-- A code section is not read as a body, so any body will do here. -/
theorem readBody_eq_none {kind : SectionKind} {found : Interface} {body : Cursor}
    (hk : kind ≠ .code) :
    kind.readBody body = (found, none) ↔
      ∃ I, found = I.reverse ∧ Grammar.Body kind I body.rest := by
  cases kind with
  | code => exact absurd rfl hk
  | custom =>
    simp only [readBody, Prod.mk.injEq, Reader.reads_name.fault?_eq_none]
    constructor
    · rintro ⟨rfl, _, _, _, h, e⟩
      exact ⟨{}, rfl, e ▸ .custom h⟩
    · rintro ⟨_, rfl, h⟩
      generalize e : body.rest = bs at h
      cases h with
      | custom h => exact ⟨rfl, _, _, _, h, rfl⟩
  | counted =>
    simp only [readBody, Prod.mk.injEq, Reader.reads_u32.fault?_eq_none]
    constructor
    · rintro ⟨rfl, _, _, _, h, e⟩
      exact ⟨{}, rfl, e ▸ .counted h⟩
    · rintro ⟨_, rfl, h⟩
      generalize e : body.rest = bs at h
      cases h with
      | counted h => exact ⟨rfl, _, _, _, h, rfl⟩
  | lone =>
    simp only [readBody, Prod.mk.injEq, Reader.loneNumber_fault?_eq_none]
    constructor
    · rintro ⟨rfl, _, h⟩
      exact ⟨{}, rfl, .lone h⟩
    · rintro ⟨_, rfl, h⟩
      cases h with
      | lone h => exact ⟨rfl, _, h⟩
  | skipped =>
    simp only [readBody, Prod.mk.injEq, and_true]
    constructor
    · rintro rfl
      exact ⟨{}, rfl, .skipped⟩
    · rintro ⟨_, rfl, h⟩
      cases h
      rfl
  | imports =>
    rcases hl : Reader.listing .importEntry body with ⟨is, fault⟩
    simp only [readBody, hl, Prod.mk.injEq]
    constructor
    · rintro ⟨rfl, rfl⟩
      obtain ⟨is, rfl, h⟩ := (Reader.listing_eq_none Reader.reads_importEntry).1 hl
      exact ⟨{ imports := is }, rfl, .imports h⟩
    · rintro ⟨_, rfl, h⟩
      cases h with
      | imports h =>
        have := (Reader.listing_eq_none Reader.reads_importEntry).2 ⟨_, rfl, h⟩
        rw [hl] at this
        cases this
        exact ⟨rfl, rfl⟩
  | exports =>
    rcases hl : Reader.listing .exportEntry body with ⟨es, fault⟩
    simp only [readBody, hl, Prod.mk.injEq]
    constructor
    · rintro ⟨rfl, rfl⟩
      obtain ⟨es, rfl, h⟩ := (Reader.listing_eq_none Reader.reads_exportEntry).1 hl
      exact ⟨{ exports := es }, rfl, .exports h⟩
    · rintro ⟨_, rfl, h⟩
      cases h with
      | exports h =>
        have := (Reader.listing_eq_none Reader.reads_exportEntry).2 ⟨_, rfl, h⟩
        rw [hl] at this
        cases this
        exact ⟨rfl, rfl⟩

theorem read_eq_ok {kind : SectionKind} {length : Nat} {found : Interface} {c c' : Cursor} :
    kind.read length c = (found, .ok c') ↔ ∃ I body, found = I.reverse ∧ Grammar.Body kind I body ∧
      body.length = length ∧ c.rest = body ++ c'.rest ∧ c'.pos = c.pos + length := by
  unfold SectionKind.read
  split
  · subst kind
    rcases hc : Reader.code length c with f | ⟨_, c₁⟩
    · refine iff_of_false (by simp [Except.map]) ?_
      rintro ⟨I, body, -, h, rfl, e, p⟩
      cases h with
      | code h =>
        have := (Reader.reads_code body.length c () c').2 ⟨body, ⟨⟨_, h⟩, rfl⟩, e, p⟩
        rw [hc] at this
        cases this
    · simp only [Except.map, Prod.mk.injEq, Except.ok.injEq]
      constructor
      · rintro ⟨rfl, rfl⟩
        obtain ⟨body, ⟨⟨sizes, h⟩, rfl⟩, e, p⟩ := (Reader.reads_code _ _ _ _).1 hc
        exact ⟨{}, body, rfl, .code h, rfl, e, p⟩
      · rintro ⟨I, body, rfl, h, rfl, e, p⟩
        cases h with
        | code h =>
          have := (Reader.reads_code body.length c () c').2 ⟨body, ⟨⟨_, h⟩, rfl⟩, e, p⟩
          rw [hc] at this
          cases this
          exact ⟨rfl, rfl⟩
  · rename_i hk
    rcases hc : Reader.take length c with f | ⟨body, c₁⟩
    · refine iff_of_false (by simp) ?_
      rintro ⟨I, body, -, -, rfl, e, p⟩
      have := Reader.take_eq_ok.2 ⟨e, rfl, p⟩
      rw [hc] at this
      cases this
    · obtain ⟨e, rfl, p⟩ := Reader.take_eq_ok.1 hc
      have hb := @readBody_eq_none kind found ⟨body, c.pos⟩ hk
      dsimp only
      constructor
      · intro h
        split at h
        · simp at h
        · rename_i h'
          obtain ⟨rfl, rfl⟩ : _ = found ∧ c₁ = c' := by simpa using h
          obtain ⟨I, rfl, hI⟩ := hb.1 h'
          exact ⟨I, body, rfl, hI, rfl, e, p⟩
      · rintro ⟨I, body', rfl, h, hl, e', p'⟩
        have := Reader.take_eq_ok.2 ⟨e', hl, p'⟩
        rw [hc] at this
        obtain ⟨rfl, rfl⟩ : body = body' ∧ c₁ = c' := by simpa using this
        rw [hb.2 ⟨I, rfl, h⟩]

end SectionKind

/-- A section is read without a fault exactly if it starts what is left. -/
theorem readSection_eq_ok {found : Interface} {c c' : Cursor} :
    readSection c = (found, .ok c') ↔ ∃ I bs, found = I.reverse ∧ Grammar.Section I bs ∧
      c.rest = bs ++ c'.rest ∧ c'.pos = c.pos + bs.length := by
  unfold readSection
  rcases hc : Reader.sectionHead c with f | ⟨⟨id, n⟩, c₁⟩
  · refine iff_of_false (by simp) ?_
    rintro ⟨I, bs, -, h, e, p⟩
    obtain @⟨id, I, length, body, hid, hl, hb⟩ := h
    have := (Reader.reads_sectionHead c (id, body.length)
      ⟨body ++ c'.rest, c.pos + (length.length + 1)⟩).2
        ⟨_, ⟨hid, length, hl, rfl⟩, by simp [e], rfl⟩
    rw [hc] at this
    cases this
  · simp only [SectionKind.read_eq_ok]
    constructor
    · rintro ⟨I, body, rfl, hb, rfl, e, p⟩
      obtain ⟨_, ⟨hid, length, hl, rfl⟩, e₁, p₁⟩ := (Reader.reads_sectionHead _ _ _).1 hc
      exact ⟨I, _, rfl, .mk hid hl hb, by simp [e₁, e], by
        simp only [p, p₁, List.length_append]
        omega⟩
    · rintro ⟨I, bs, rfl, h, e, p⟩
      obtain @⟨id', I, length, body, hid, hl, hb⟩ := h
      have := (Reader.reads_sectionHead c (id', body.length)
        ⟨body ++ c'.rest, c.pos + (length.length + 1)⟩).2
          ⟨_, ⟨hid, length, hl, rfl⟩, by simp [e], rfl⟩
      rw [hc] at this
      cases this
      refine ⟨I, body, rfl, hb, rfl, rfl, ?_⟩
      simp only [p, List.length_append, List.length_cons]
      omega

end HostAbi
