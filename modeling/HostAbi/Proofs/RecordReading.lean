import HostAbi.Proofs.Canonical
import Mathlib.Data.List.Forall2
import Mathlib.Data.List.Nodup
import Mathlib.Data.List.Perm.Basic

/-!
# Reading a record whatever its layout

A record is read off the values that an object has under the names of the record's fields. An
object is accepted exactly if all its names spell texts (`Named`) and these values give each field
something (`Field.Gives`), and that is what the record has in the field. In which order the members
stand, which others there are and how texts are spelled makes no difference (`Field.Alike`), also
within a field that is a record itself. An array is read as the object that has its items under the
names in their order.

All this follows from one property of a reader (`IsRecord`): it takes the values of the fields and
reads each on its own. So a record type has these laws (`ReadsRecord`) once it has this property.
-/

namespace HostAbi

section Lists

variable {ι : Type*} {α β γ : Type}

theorem exists_forall₂_iff {R : ι → α → Prop} {is : List ι} :
    (∃ as, List.Forall₂ R is as) ↔ ∀ i ∈ is, ∃ a, R i a := by
  induction is with
  | nil => simp
  | cons i is ih =>
    rw [List.forall_mem_cons, ← ih]
    constructor
    · rintro ⟨_, h⟩
      obtain ⟨a, as, ha, has, -⟩ := List.forall₂_cons_left_iff.1 h
      exact ⟨⟨a, ha⟩, as, has⟩
    · rintro ⟨⟨a, ha⟩, as, has⟩
      exact ⟨a :: as, .cons ha has⟩

theorem forall₂_and_iff {R S : ι → α → Prop} {is : List ι} {as : List α} :
    List.Forall₂ R is as ∧ List.Forall₂ S is as ↔
      List.Forall₂ (fun i a => R i a ∧ S i a) is as := by
  constructor
  · rintro ⟨hR, hS⟩
    exact hR.mp (fun _ _ hr hs => ⟨hr, hs⟩) hS
  · intro h
    exact ⟨h.imp fun _ _ h => h.1, h.imp fun _ _ h => h.2⟩

theorem forall₂_iff_of_rel {P : ι → α → Prop} {Q : ι → β → Prop} {R : α → β → Prop} {as : List α}
    {bs : List β} (h : List.Forall₂ R as bs) (hPQ : ∀ i a b, R a b → (P i a ↔ Q i b)) :
    ∀ {is : List ι}, List.Forall₂ P is as ↔ List.Forall₂ Q is bs := by
  induction h with
  | nil => simp
  | cons hab _ ih =>
    rintro (_ | ⟨i, is⟩)
    · simp
    · rw [List.forall₂_cons, List.forall₂_cons, hPQ i _ _ hab, ih]

theorem forall₂_iff_forall {P R : ι → α → Prop} {Q : ι → Prop} {is : List ι} {as : List α}
    (h : List.Forall₂ R is as) (hPQ : ∀ i a, R i a → (P i a ↔ Q i)) :
    List.Forall₂ P is as ↔ ∀ i ∈ is, Q i := by
  induction h with
  | nil => simp
  | cons hia _ ih => rw [List.forall₂_cons, List.forall_mem_cons, hPQ _ _ hia, ih]

theorem mapM_eq_some_iff {f : α → Option γ} {xs : List α} {ys : List γ} :
    xs.mapM f = some ys ↔ List.Forall₂ (fun x y => f x = some y) xs ys := by
  induction xs generalizing ys with
  | nil => simp [eq_comm]
  | cons x xs ih =>
    simp only [List.mapM_cons, Option.bind_eq_bind, Option.bind_eq_some_iff, Option.pure_def,
      Option.some.injEq, List.forall₂_cons_left_iff, ih]
    constructor
    · rintro ⟨y, hy, ys', hys, rfl⟩
      exact ⟨y, ys', hy, hys, rfl⟩
    · rintro ⟨y, ys', hy, hys, rfl⟩
      exact ⟨y, hy, ys', hys, rfl⟩

end Lists

namespace Json

/-- Whether the name of every member spells a text, with no half of a surrogate pair alone. -/
def Named (members : List (Points × Json)) : Prop := ∀ m ∈ members, m.1.text? ≠ none

/-- The values that members have under a name, however it is spelled. -/
def valuesOf (members : List (Points × Json)) (name : String) : List Json :=
  (members.filter (·.1.text? == some name)).map (·.2)

mutual

/-- Whether two values differ only in how the characters of texts are spelled. Escapes are no longer
there in a value, but a character may still be one code point or a pair of surrogates. -/
inductive Respelled : Json → Json → Prop
  | refl (v : Json) : Respelled v v
  | str {ps qs : Points} : ps.text? = qs.text? → Respelled (.str ps) (.str qs)
  | arr {vs ws : List Json} : List.Forall₂ Respelled vs ws → Respelled (.arr vs) (.arr ws)
  | obj {ms ns : List (Points × Json)} : List.Forall₂ RespelledMember ms ns →
      Respelled (.obj ms) (.obj ns)

/-- Whether two members differ only in how the characters of texts are spelled. -/
inductive RespelledMember : Points × Json → Points × Json → Prop
  | mk {k l : Points} {v w : Json} : k.text? = l.text? → Respelled v w →
      RespelledMember (k, v) (l, w)

end

section Members

variable {members members' : List (Points × Json)} {ms : List (String × Json)} {name : String}

theorem named?_eq_some_iff : named? members = some ms ↔
    List.Forall₂ (fun m u => m.1.text? = some u.1 ∧ m.2 = u.2) members ms := by
  have hmember : ∀ (m : Points × Json) (u : String × Json),
      m.1.text?.map (·, m.2) = some u ↔ m.1.text? = some u.1 ∧ m.2 = u.2 := by
    rintro ⟨k, v⟩ ⟨name, w⟩
    simp
  simp [named?, mapM_eq_some_iff, hmember]

/-- One name that is no text is enough for an object to be refused. -/
theorem exists_named?_iff : (∃ ms, named? members = some ms) ↔ Named members := by
  simp only [named?_eq_some_iff, exists_forall₂_iff]
  refine forall₂_congr fun m _ => ?_
  rw [Option.ne_none_iff_exists']
  constructor
  · rintro ⟨u, hu, -⟩
    exact ⟨u.1, hu⟩
  · rintro ⟨name, hname⟩
    exact ⟨(name, m.2), hname, rfl⟩

theorem valuesOf_cons (m : Points × Json) : valuesOf (m :: members) name =
    if m.1.text? = some name then m.2 :: valuesOf members name else valuesOf members name := by
  by_cases h : m.1.text? = some name <;> simp [valuesOf, h]

theorem valuesOf_append :
    valuesOf (members ++ members') name = valuesOf members name ++ valuesOf members' name := by
  simp [valuesOf]

theorem valuesOf_eq_of_named? (h : named? members = some ms) :
    valuesOf members name = (ms.filter (·.1 == name)).map (·.2) := by
  rw [named?_eq_some_iff] at h
  induction h with
  | nil => rfl
  | @cons m u _ _ hmu _ ih =>
    obtain ⟨hname, hvalue⟩ := hmu
    rw [valuesOf_cons, ih, hname, hvalue]
    by_cases hu : u.1 = name <;> simp [hu]

theorem member?_eq_some_iff (h : named? members = some ms) {x : Option Json} :
    member? ms name = some x ↔ valuesOf members name = x.toList := by
  rw [valuesOf_eq_of_named? h]
  unfold member?
  generalize ms.filter (·.1 == name) = us
  rcases us with _ | ⟨m, _ | ⟨m', us⟩⟩ <;> cases x <;> simp

theorem named_record (ms : List (String × Json)) :
    Named (ms.map fun m => (.ofString m.1, m.2)) := by
  intro m hm
  obtain ⟨u, -, rfl⟩ := List.mem_map.1 hm
  simp [Points.text?_ofString]

theorem length_of_fields? {v : Json} {names : List String} {xs : List (Option Json)}
    (h : v.fields? names = some xs) : xs.length = names.length := by
  unfold Json.fields? at h
  split at h
  · obtain ⟨ms, -, hxs⟩ := Option.bind_eq_some_iff.1 h
    exact (mapM_eq_some_iff.1 hxs).length_eq.symm
  · split at h
    · rename_i hlen
      obtain rfl := Option.some.inj h
      simpa using hlen
    · cases h
  · cases h

theorem named_respelled (h : List.Forall₂ RespelledMember members members') :
    Named members ↔ Named members' := by
  induction h with
  | nil => rfl
  | cons hm _ ih =>
    cases hm with
    | mk hkl _ =>
      simp only [Named, List.forall_mem_cons, hkl] at ih ⊢
      rw [ih]

/-- Under each name stand the same values, but for their spelling. -/
theorem valuesOf_respelled (h : List.Forall₂ RespelledMember members members') (name : String) :
    List.Forall₂ Respelled (valuesOf members name) (valuesOf members' name) := by
  induction h with
  | nil => exact .nil
  | cons hm _ ih =>
    cases hm with
    | mk hkl hvw =>
      rw [valuesOf_cons, valuesOf_cons, hkl]
      split
      · exact .cons hvw ih
      · exact ih

end Members

end Json

open Json

/-- The JSON forms of a type: how they are read, and which of them differ in layout only. -/
structure Form (β : Type) where
  read : Json → Option β
  Alike : Json → Json → Prop
  read_null : read .null = none
  alike_of_respelled : ∀ {v w : Json}, Respelled v w → Alike v w
  null_iff_of_alike : ∀ {v w : Json}, Alike v w → (v = .null ↔ w = .null)
  read_eq_of_alike : ∀ {v w : Json}, Alike v w → read v = read w

theorem Json.Respelled.null_iff {v w : Json} (h : Respelled v w) : v = .null ↔ w = .null := by
  cases h <;> simp

/-- The forms of a type whose values have no layout of their own. -/
def Form.plain {β : Type} (read : Json → Option β) (hnull : read .null = none)
    (hread : ∀ {v w : Json}, Respelled v w → read v = read w) : Form β :=
  ⟨read, Respelled, hnull, id, fun h => h.null_iff, hread⟩

/-- A field of a record type. What a record has in it is none only if the field is optional. -/
structure Field (α : Type) where
  name : String
  Value : Type
  form : Form Value
  isOptional : Bool
  get : α → Option Value

namespace Field

variable {α β : Type}

/-- A field that every record has. -/
def required (name : String) (form : Form β) (get : α → β) : Field α :=
  ⟨name, β, form, false, fun a => some (get a)⟩

/-- A field that a record may have. -/
def optional (name : String) (form : Form β) (get : α → Option β) : Field α :=
  ⟨name, β, form, true, get⟩

/-- What the values that stand under the name of a field give it: they have to be one that can be
read, and for an optional field there may also be none, or null. -/
inductive Gives (f : Field α) : List Json → Option f.Value → Prop
  | absent : f.isOptional → Gives f [] none
  | null : f.isOptional → Gives f [.null] none
  | value {v : Json} {x : f.Value} : f.form.read v = some x → Gives f [v] (some x)

/-- What is read off the value of a field, if it has one. -/
def read? (f : Field α) (v : Option Json) : Option (Option f.Value) :=
  if f.isOptional then optional? f.form.read v else (required? f.form.read v).map some

section Kinds

variable (name : String) (form : Form β) (v : Option Json)

@[simp] theorem read?_required_eq_some_iff (get : α → β) (a : α) :
    (required name form get).read? v = some ((required name form get).get a) ↔
      required? form.read v = some (get a) := by
  simp [required, read?, Option.map_eq_some_iff]

@[simp] theorem exists_read?_required_iff (get : α → β) :
    (∃ x, (required name form get).read? v = some x) ↔ ∃ y, required? form.read v = some y := by
  simp [required, read?, Option.map_eq_some_iff]

@[simp] theorem read?_optional_eq_some_iff (get : α → Option β) (a : α) :
    (optional name form get).read? v = some ((optional name form get).get a) ↔
      optional? form.read v = some (get a) := Iff.rfl

@[simp] theorem exists_read?_optional_iff (get : α → Option β) :
    (∃ x, (optional name form get).read? v = some x) ↔ ∃ y, optional? form.read v = some y :=
  Iff.rfl

end Kinds

/-- Moves that change the layout of an object only: its members in another order, a member less
under a name that is no field's, and another layout of the value of a field. -/
inductive Relaid (fields : List (Field α)) : List (Points × Json) → List (Points × Json) → Prop
  | order {ms ns : List (Points × Json)} : ms.Perm ns → Relaid fields ms ns
  | foreign {k : Points} {name : String} (ms ns : List (Points × Json)) (v : Json) :
      k.text? = some name → (∀ f ∈ fields, f.name ≠ name) →
      Relaid fields (ms ++ (k, v) :: ns) (ms ++ ns)
  | value {f : Field α} {k : Points} {v w : Json} (ms ns : List (Points × Json)) : f ∈ fields →
      k.text? = some f.name → f.form.Alike v w →
      Relaid fields (ms ++ (k, v) :: ns) (ms ++ (k, w) :: ns)
  | symm {ms ns : List (Points × Json)} : Relaid fields ms ns → Relaid fields ns ms
  | trans {ms ns us : List (Points × Json)} : Relaid fields ms ns → Relaid fields ns us →
      Relaid fields ms us

/-- Whether two values differ only in their layout as records with these fields. -/
inductive Alike (fields : List (Field α)) : Json → Json → Prop
  | respelled {v w : Json} : Respelled v w → Alike fields v w
  | relaid {ms ns : List (Points × Json)} : Relaid fields ms ns →
      Alike fields (.obj ms) (.obj ns)
  | trans {u v w : Json} : Alike fields u v → Alike fields v w → Alike fields u w

theorem Alike.null_iff {fields : List (Field α)} {v w : Json} (h : Alike fields v w) :
    v = .null ↔ w = .null := by
  induction h with
  | respelled h => exact h.null_iff
  | relaid => simp
  | trans _ _ ih ih' => exact ih.trans ih'

section Gives

variable {f : Field α} {vs ws : List Json} {v w : Json} {x : Option f.Value}

theorem read?_none : f.read? none = if f.isOptional then some none else none := by
  simp [read?, optional?, required?]

theorem read?_null : f.read? (some .null) = if f.isOptional then some none else none := by
  simp [read?, optional?, required?, f.form.read_null]

theorem read?_some (hv : v ≠ .null) : f.read? (some v) = (f.form.read v).map some := by
  cases hoptional : f.isOptional <;> simp [read?, hoptional, optional?, required?]

theorem gives_nil_iff : f.Gives [] x ↔ f.read? none = some x := by
  rw [read?_none]
  constructor
  · rintro (hoptional | _ | _)
    simp [hoptional]
  · intro h
    obtain ⟨hoptional, rfl⟩ : f.isOptional ∧ none = x := by simpa using h
    exact .absent hoptional

theorem gives_singleton_iff : f.Gives [v] x ↔ f.read? (some v) = some x := by
  by_cases hv : v = .null
  · subst hv
    rw [read?_null]
    constructor
    · rintro (_ | hoptional | hread)
      · simp [hoptional]
      · rw [f.form.read_null] at hread
        cases hread
    · intro h
      obtain ⟨hoptional, rfl⟩ : f.isOptional ∧ none = x := by simpa using h
      exact .null hoptional
  · rw [read?_some hv]
    constructor
    · rintro (_ | hoptional | hread)
      · exact absurd rfl hv
      · simp [hread]
    · intro h
      obtain ⟨y, hread, rfl⟩ := Option.map_eq_some_iff.1 h
      exact .value hread

theorem Gives.length_le (h : f.Gives vs x) : vs.length ≤ 1 := by
  cases h <;> simp

/-- A field is given what is read off the only value of its name, or off none. -/
theorem gives_iff : f.Gives vs x ↔ ∃ v : Option Json, vs = v.toList ∧ f.read? v = some x := by
  constructor
  · intro h
    match vs, h.length_le with
    | [], _ => exact ⟨none, rfl, gives_nil_iff.1 h⟩
    | [v], _ => exact ⟨some v, rfl, gives_singleton_iff.1 h⟩
  · rintro ⟨_ | v, rfl, h⟩
    · exact gives_nil_iff.2 h
    · exact gives_singleton_iff.2 h

theorem gives_perm (h : vs.Perm ws) : f.Gives vs x ↔ f.Gives ws x := by
  match vs, ws, h with
  | [], ws, h => rw [h.nil_eq]
  | [v], ws, h => rw [h.singleton_eq]
  | v :: v' :: vs, ws, h =>
    have hlen := h.length_eq
    refine iff_of_false (fun hg => ?_) fun hg => ?_
    · exact absurd hg.length_le (by simp)
    · exact absurd hg.length_le (by simp [← hlen])

theorem read?_alike (h : f.form.Alike v w) : f.read? (some v) = f.read? (some w) := by
  by_cases hv : v = .null
  · have hw := (f.form.null_iff_of_alike h).1 hv
    rw [hv, hw]
  · have hw : w ≠ .null := fun hw => hv ((f.form.null_iff_of_alike h).2 hw)
    rw [read?_some hv, read?_some hw, f.form.read_eq_of_alike h]

theorem gives_alike (h : List.Forall₂ f.form.Alike vs ws) : f.Gives vs x ↔ f.Gives ws x := by
  match vs, ws, h with
  | [], _, .nil => rfl
  | [v], _, .cons h .nil => rw [gives_singleton_iff, gives_singleton_iff, read?_alike h]
  | v :: v' :: vs, _, .cons _ (.cons _ _) =>
    exact iff_of_false (fun hg => absurd hg.length_le (by simp)) fun hg =>
      absurd hg.length_le (by simp)

end Gives

end Field

/-- Whether a reader takes the values of the fields, reads each on its own and makes a record of
what it has read. -/
structure IsRecord {α : Type} (read : Json → Option α) (fields : List (Field α)) : Prop where
  nodup : (fields.map (·.name)).Nodup
  eq_some_iff : ∀ v a, read v = some a ↔ ∃ xs, v.fields? (fields.map (·.name)) = some xs ∧
    List.Forall₂ (fun f x => f.read? x = some (f.get a)) fields xs
  exists_iff : ∀ v, (∃ a, read v = some a) ↔
    ∃ xs, v.fields? (fields.map (·.name)) = some xs ∧
      List.Forall₂ (fun f x => ∃ y, f.read? x = some y) fields xs

namespace IsRecord

variable {α : Type} {read : Json → Option α} {fields : List (Field α)} {v w : Json}
  {members ms ns : List (Points × Json)} {items : List Json} {a : α}

/-- It is enough to look at what is made of one value for each field. -/
theorem of_bind {assemble : List (Option Json) → Option α} (hnodup : (fields.map (·.name)).Nodup)
    (hread : ∀ v, read v = (v.fields? (fields.map (·.name))).bind assemble)
    (hsome : ∀ xs, xs.length = fields.length → ∀ a, assemble xs = some a ↔
      List.Forall₂ (fun f x => f.read? x = some (f.get a)) fields xs)
    (hexists : ∀ xs, xs.length = fields.length → ((∃ a, assemble xs = some a) ↔
      List.Forall₂ (fun f x => ∃ y, f.read? x = some y) fields xs)) : IsRecord read fields where
  nodup := hnodup
  eq_some_iff v a := by
    rw [hread, Option.bind_eq_some_iff]
    refine exists_congr fun xs => and_congr_right fun hxs => hsome xs ?_ a
    simpa using length_of_fields? hxs
  exists_iff v := by
    simp only [hread, Option.bind_eq_some_iff]
    rw [exists_comm]
    refine exists_congr fun xs => ?_
    rw [exists_and_left]
    refine and_congr_right fun hxs => hexists xs ?_
    simpa using length_of_fields? hxs

theorem exists_fields?_obj_iff {P : Field α → Option Json → Prop} :
    (∃ xs, (Json.obj members).fields? (fields.map (·.name)) = some xs ∧
      List.Forall₂ P fields xs) ↔
    Named members ∧
      ∀ f ∈ fields, ∃ x : Option Json, valuesOf members f.name = x.toList ∧ P f x := by
  by_cases hmembers : Named members
  · obtain ⟨ms, hms⟩ := exists_named?_iff.2 hmembers
    simp only [fields?, hms, Option.bind_eq_bind, Option.bind_some, mapM_eq_some_iff,
      List.forall₂_map_left_iff, forall₂_and_iff, exists_forall₂_iff, member?_eq_some_iff hms,
      hmembers, true_and]
  · refine iff_of_false ?_ fun h => hmembers h.1
    rintro ⟨xs, hxs, -⟩
    obtain ⟨ms, hms, -⟩ := Option.bind_eq_some_iff.1 hxs
    exact hmembers (exists_named?_iff.1 ⟨ms, hms⟩)

/-- An object is read as a record that has in each field what the members give it. -/
theorem obj_eq_some_iff (h : IsRecord read fields) : read (.obj members) = some a ↔
    Named members ∧ ∀ f ∈ fields, f.Gives (valuesOf members f.name) (f.get a) := by
  rw [h.eq_some_iff, exists_fields?_obj_iff]
  simp only [Field.gives_iff]

/-- An object is accepted exactly if all its names spell texts and each field is given
something. -/
theorem obj_isSome_iff (h : IsRecord read fields) : (read (.obj members)).isSome ↔
    Named members ∧ ∀ f ∈ fields, ∃ x, f.Gives (valuesOf members f.name) x := by
  rw [Option.isSome_iff_exists, h.exists_iff, exists_fields?_obj_iff]
  simp only [Field.gives_iff]
  refine and_congr_right fun _ => forall₂_congr fun f _ => ?_
  constructor
  · rintro ⟨v, hv, x, hx⟩
    exact ⟨x, v, hv, hx⟩
  · rintro ⟨x, v, hv, hx⟩
    exact ⟨v, hv, x, hx⟩

theorem exists_fields?_arr_iff {P : Field α → Option Json → Prop} :
    (∃ xs, (Json.arr items).fields? (fields.map (·.name)) = some xs ∧ List.Forall₂ P fields xs) ↔
      List.Forall₂ (fun f v => P f (some v)) fields items := by
  by_cases hlen : items.length = fields.length
  · simp [fields?, hlen]
  · refine iff_of_false ?_ fun h => hlen h.length_eq.symm
    simp [fields?, hlen]

/-- An array is read as a record that has in each field what its item gives it. -/
theorem arr_eq_some_iff (h : IsRecord read fields) :
    read (.arr items) = some a ↔
      List.Forall₂ (fun f v => f.Gives [v] (f.get a)) fields items := by
  rw [h.eq_some_iff, exists_fields?_arr_iff]
  simp only [Field.gives_singleton_iff]

/-- What is neither an object nor an array is not read. -/
theorem eq_none_of_fields? (h : IsRecord read fields) (hv : ∀ names, v.fields? names = none) :
    read v = none := by
  refine Option.eq_none_iff_forall_ne_some.2 fun a ha => ?_
  obtain ⟨xs, hxs, -⟩ := (h.eq_some_iff v a).1 ha
  rw [hv] at hxs
  cases hxs

theorem arr_eq_none (h : IsRecord read fields) (hlen : items.length ≠ fields.length) :
    read (.arr items) = none := by
  refine Option.eq_none_iff_forall_ne_some.2 fun a ha => ?_
  exact hlen (h.arr_eq_some_iff.1 ha).length_eq.symm

/-- An array is read as an object is that has its items under the names, where null may stand for
an optional field that the object leaves out. -/
theorem arr_eq_obj (h : IsRecord read fields) (hmembers : Named members)
    (hitems : List.Forall₂ (fun f x => valuesOf members f.name = [x] ∨
      f.isOptional ∧ valuesOf members f.name = [] ∧ x = .null) fields items) :
    read (.arr items) = read (.obj members) := by
  refine Option.ext fun a => ?_
  rw [h.arr_eq_some_iff, h.obj_eq_some_iff, and_iff_right hmembers]
  refine forall₂_iff_forall hitems ?_
  rintro f x (hvalues | ⟨-, hvalues, rfl⟩)
  · rw [hvalues]
  · rw [hvalues, Field.gives_singleton_iff, Field.gives_nil_iff, Field.read?_none,
      Field.read?_null]

/-- No move gives or takes a name that spells no text. -/
theorem named_relaid (h : Field.Relaid fields ms ns) : Named ms ↔ Named ns := by
  induction h with
  | order hperm => exact forall_congr' fun m => imp_congr_left hperm.mem_iff
  | foreign ms ns v hname => simp [Named, or_imp, forall_and, hname]
  | value ms ns => simp [Named, or_imp, forall_and]
  | symm _ ih => exact ih.symm
  | trans _ _ ih ih' => exact ih.trans ih'

/-- No move changes what a field is given. -/
theorem gives_relaid (h : IsRecord read fields) (hms : Field.Relaid fields ms ns) :
    ∀ f ∈ fields, ∀ x, f.Gives (valuesOf ms f.name) x ↔ f.Gives (valuesOf ns f.name) x := by
  induction hms with
  | order hperm =>
    intro f _ x
    exact Field.gives_perm ((hperm.filter _).map _)
  | @foreign k name ms ns v hk hname =>
    intro f hf x
    have hforeign : k.text? ≠ some f.name := by
      rw [hk]
      exact fun heq => hname f hf (Option.some.inj heq).symm
    rw [valuesOf_append, valuesOf_cons, if_neg hforeign, valuesOf_append]
  | @value g k v w ms ns hg hk hvw =>
    intro f hf x
    rw [valuesOf_append, valuesOf_append, valuesOf_cons, valuesOf_cons, hk]
    by_cases heq : g.name = f.name
    -- No two fields have one name, so the form that is alike is that of this field.
    · obtain rfl := List.inj_on_of_nodup_map h.nodup hg hf heq
      rw [if_pos rfl, if_pos rfl]
      have hsame : ∀ vs : List Json, List.Forall₂ g.form.Alike vs vs := fun vs =>
        List.forall₂_same.2 fun u _ => g.form.alike_of_respelled (.refl u)
      exact Field.gives_alike (List.rel_append (hsame _) (.cons hvw (hsame _)))
    · have hforeign : some g.name ≠ some f.name := fun h => heq (Option.some.inj h)
      rw [if_neg hforeign, if_neg hforeign]
  | symm _ ih =>
    intro f hf x
    exact (ih f hf x).symm
  | trans _ _ ih ih' =>
    intro f hf x
    exact (ih f hf x).trans (ih' f hf x)

theorem read_relaid (h : IsRecord read fields) (hms : Field.Relaid fields ms ns) :
    read (.obj ms) = read (.obj ns) := by
  refine Option.ext fun a => ?_
  rw [h.obj_eq_some_iff, h.obj_eq_some_iff]
  exact and_congr (named_relaid hms) (forall₂_congr fun f hf => h.gives_relaid hms f hf _)

/-- Neither does the spelling of characters, in an object or in an array. -/
theorem read_respelled (h : IsRecord read fields) (hvw : Respelled v w) : read v = read w := by
  cases hvw with
  | refl => rfl
  | str => rw [h.eq_none_of_fields? fun _ => rfl, h.eq_none_of_fields? fun _ => rfl]
  | arr hitems =>
    refine Option.ext fun a => ?_
    rw [h.arr_eq_some_iff, h.arr_eq_some_iff]
    refine forall₂_iff_of_rel hitems fun f x y hxy => ?_
    exact Field.gives_alike (.cons (f.form.alike_of_respelled hxy) .nil)
  | obj hmembers =>
    refine Option.ext fun a => ?_
    rw [h.obj_eq_some_iff, h.obj_eq_some_iff]
    refine and_congr (named_respelled hmembers) (forall₂_congr fun f _ => Field.gives_alike ?_)
    exact (valuesOf_respelled hmembers f.name).imp fun _ _ => f.form.alike_of_respelled

theorem read_alike (h : IsRecord read fields) (hvw : Field.Alike fields v w) :
    read v = read w := by
  induction hvw with
  | respelled hvw => exact h.read_respelled hvw
  | relaid hms => exact h.read_relaid hms
  | trans _ _ ih ih' => exact ih.trans ih'

end IsRecord

/-- The forms of a record type, which may stand in a field of another record. -/
def Form.record {α : Type} {read : Json → Option α} {fields : List (Field α)}
    (h : IsRecord read fields) : Form α where
  read := read
  Alike := Field.Alike fields
  read_null := h.eq_none_of_fields? fun _ => rfl
  alike_of_respelled := .respelled
  null_iff_of_alike := Field.Alike.null_iff
  read_eq_of_alike := h.read_alike

@[simp] theorem Form.read_record {α : Type} {read : Json → Option α} {fields : List (Field α)}
    (h : IsRecord read fields) : (Form.record h).read = read := rfl

/-- How a record type with these fields is read from texts. -/
structure ReadsRecord {α : Type} (read : Json → Option α) (fields : List (Field α)) : Prop where
  /-- All texts of a value are read the same, however they are spaced and escaped. -/
  of_document : ∀ {v text}, Document v text → decode? read text = read v
  /-- An object is accepted exactly if all its names spell texts and each field is given
  something. -/
  accepts : ∀ {members text}, Document (.obj members) text → ((decode? read text).isSome ↔
    Named members ∧ ∀ f ∈ fields, ∃ x, f.Gives (valuesOf members f.name) x)
  /-- What is read has in each field what the field is given. -/
  states : ∀ {members text a}, Document (.obj members) text → (decode? read text = some a ↔
    Named members ∧ ∀ f ∈ fields, f.Gives (valuesOf members f.name) (f.get a))
  /-- Texts of values that differ in layout only are read the same. -/
  layout : ∀ {v w text text'}, Document v text → Document w text' → Field.Alike fields v w →
    decode? read text = decode? read text'
  /-- An array of the values of the fields is read as the object. -/
  items : ∀ {members items text text'}, Document (.obj members) text → Named members →
    Document (.arr items) text' →
    List.Forall₂ (fun f x => valuesOf members f.name = [x] ∨
      f.isOptional ∧ valuesOf members f.name = [] ∧ x = .null) fields items →
    decode? read text' = decode? read text
  /-- An array with fewer or more items than there are fields is refused. -/
  length : ∀ {items text}, Document (.arr items) text → items.length ≠ fields.length →
    decode? read text = none

theorem IsRecord.readsRecord {α : Type} {read : Json → Option α} {fields : List (Field α)}
    (h : IsRecord read fields) : ReadsRecord read fields where
  of_document := decode?_of_document
  accepts htext := by rw [decode?_of_document htext, h.obj_isSome_iff]
  states htext := by rw [decode?_of_document htext, h.obj_eq_some_iff]
  layout htext htext' hvw := by
    rw [decode?_of_document htext, decode?_of_document htext', h.read_alike hvw]
  items htext hmembers htext' hitems := by
    rw [decode?_of_document htext', decode?_of_document htext, h.arr_eq_obj hmembers hitems]
  length htext hlen := by rw [decode?_of_document htext, h.arr_eq_none hlen]

end HostAbi
