import HostAbi.Report.Document
import Mathlib.Data.List.TakeDrop
import Mathlib.Data.List.TakeWhile

/-!
# Parts of reports that are read back

What is written for a number, a text, a list or a record is read back as the same. A record is read
back field by field, since no two of its fields have one name (`Json.fields?_record`), and so every
part of a report is (`ofJson?_json`, for each).
-/

namespace HostAbi

namespace Number

theorem afterDigits?_of_all {cs : List Char} (hne : cs ≠ []) (h : ∀ c ∈ cs, c.isDigit) :
    afterDigits? cs = some [] := by
  have hspan : cs.span Char.isDigit = (cs, []) := by
    rw [List.span_eq_takeWhile_dropWhile, List.takeWhile_eq_self_iff.2 h,
      List.dropWhile_eq_nil_iff.2 h]
  cases cs with
  | nil => exact absurd rfl hne
  | cons c cs => simp only [afterDigits?, hspan]

theorem afterWhole?_of_isNatural {cs : List Char} (h : isNatural cs) :
    afterWhole? cs = some [] := by
  unfold isNatural at h
  split at h
  · cases h
  · rfl
  · rename_i hnil _
    simp only [Bool.and_eq_true, List.all_eq_true, bne_iff_ne, ne_eq] at h
    unfold afterWhole?
    split
    · exact absurd rfl h.2
    · exact afterDigits?_of_all hnil h.1

theorem isLiteral_of_isNatural {cs : List Char} (h : isNatural cs) :
    isLiteral cs ∧ isLiteral ('-' :: cs) := by
  have hwhole := afterWhole?_of_isNatural h
  have hminus : afterMinus cs = cs := by
    unfold afterMinus
    split
    · simp [isNatural] at h
    · rfl
  constructor
  · simp [isLiteral, hminus, hwhole, afterFraction?, afterExponent?]
  · simp [isLiteral, afterMinus, hwhole, afterFraction?, afterExponent?]

theorem head?_toDigits {n : Nat} (h : n ≠ 0) : (Nat.toDigits 10 n).head? ≠ some '0' := by
  induction n using Nat.strongRecOn with
  | _ n ih =>
    rcases Nat.lt_or_ge n 10 with hlt | hge
    · rw [Nat.toDigits_of_lt_base hlt]
      simpa using h
    · rw [Nat.toDigits_of_base_le (by decide) hge]
      have ih := ih (n / 10) (by omega) (by omega)
      obtain ⟨d, ds, hd⟩ := List.exists_cons_of_ne_nil (Nat.toDigits_ne_nil (n := n / 10) (b := 10))
      rw [hd] at ih ⊢
      simpa using ih

theorem isNatural_toDigits (n : Nat) : isNatural (Nat.toDigits 10 n) := by
  rcases Nat.eq_zero_or_pos n with rfl | hn
  · rfl
  · have hdigits : ∀ c ∈ Nat.toDigits 10 n, c.isDigit := fun c hc =>
      Nat.isDigit_of_mem_toDigits (by decide) (by decide) hc
    have hhead := head?_toDigits (Nat.pos_iff_ne_zero.1 hn)
    unfold isNatural
    split
    · exact absurd ‹_› Nat.toDigits_ne_nil
    · rfl
    · simp only [Bool.and_eq_true, List.all_eq_true, bne_iff_ne, ne_eq]
      exact ⟨hdigits, hhead⟩

theorem isLiteral_repr (n : Int) : isLiteral n.repr.toList := by
  cases n with
  | ofNat n =>
    have h := isLiteral_of_isNatural (isNatural_toDigits n)
    simpa [Int.repr, Nat.toList_repr] using h.1
  | negSucc n =>
    have h := isLiteral_of_isNatural (isNatural_toDigits (n + 1))
    simpa [Int.repr, Nat.toList_repr] using h.2

theorem toInt?_repr (n : Int) : toInt? n.repr.toList = some n := by
  have hvalue : ∀ m : Nat, Nat.ofDigitChars 10 (Nat.toDigits 10 m) 0 = m := fun m =>
    Nat.ofDigitChars_ten_toDigits
  cases n with
  | ofNat n =>
    have hnat := isNatural_toDigits n
    have hdigits : (Int.ofNat n).repr.toList = Nat.toDigits 10 n := by
      simp [Int.repr, Nat.toList_repr]
    rw [hdigits, toInt?]
    · simp [hnat, hvalue]
    · intro cs hcs
      rw [hcs] at hnat
      simp [isNatural] at hnat
  | negSucc n =>
    have hnat := isNatural_toDigits (n + 1)
    have hne : Nat.toDigits 10 (n + 1) ≠ ['0'] := by
      intro h0
      have hhead := head?_toDigits (Nat.succ_ne_zero n)
      rw [h0] at hhead
      exact hhead rfl
    have hdigits : (Int.negSucc n).repr.toList = '-' :: Nat.toDigits 10 (n + 1) := by
      simp [Int.repr, Nat.toList_repr]
    rw [hdigits, toInt?]
    simp [hnat, hne, hvalue, Int.negSucc_eq]

end Number

namespace Points

theorem isHigh_toNat (c : Char) : isHigh c.toNat = false := by
  have hc : c.toNat < 0xD800 ∨ 0xDFFF < c.toNat ∧ c.toNat < 0x110000 := c.valid
  simp only [isHigh, Bool.and_eq_false_iff, decide_eq_false_iff_not]
  omega

theorem isLow_toNat (c : Char) : isLow c.toNat = false := by
  have hc : c.toNat < 0xD800 ∨ 0xDFFF < c.toNat ∧ c.toNat < 0x110000 := c.valid
  simp only [isLow, Bool.and_eq_false_iff, decide_eq_false_iff_not]
  omega

theorem chars?_map_toNat : ∀ cs : List Char, chars? (cs.map Char.toNat) = some cs
  | [] => rfl
  | [c] => by simp [chars?, isHigh_toNat, isLow_toNat]
  | c :: d :: cs => by
    have ih := chars?_map_toNat (d :: cs)
    rw [List.map_cons] at ih
    simp [chars?, isHigh_toNat, isLow_toNat, ih]

theorem text?_ofString (s : String) : (ofString s).text? = some s := by
  simp [text?, ofString, chars?_map_toNat]

end Points

namespace Json

variable {α : Type}

@[simp] theorem text?_ofString (s : String) : (ofString s).text? = some s :=
  Points.text?_ofString s

@[simp] theorem variant?_ofString (s : String) : (ofString s).variant? = some s :=
  Points.text?_ofString s

@[simp] theorem bool?_bool (b : Bool) : (Json.bool b).bool? = some b := rfl

theorem intWithin?_ofInt {lo hi n : Int} (hlo : lo ≤ n) (hhi : n < hi) :
    (ofInt n).intWithin? lo hi = some n := by
  simp [ofInt, intWithin?, Number.toInt?_repr, hlo, hhi]

@[simp] theorem int64?_ofInt64 (n : Int64) : (ofInt64 n).int64? = some n := by
  have hlo := Int64.le_toInt n
  have hhi := Int64.toInt_lt n
  rw [int64?, ofInt64, intWithin?_ofInt (by omega) (by omega)]
  simp

@[simp] theorem int32?_ofInt32 (n : Int32) : (ofInt32 n).int32? = some n := by
  have hlo := Int32.le_toInt n
  have hhi := Int32.toInt_lt n
  rw [int32?, ofInt32, intWithin?_ofInt (by omega) (by omega)]
  simp

@[simp] theorem uint64?_ofNat (n : UInt64) : (ofNat n.toNat).uint64? = some n := by
  have hn := n.toNat_lt
  rw [uint64?, ofNat, intWithin?_ofInt (by omega) (by omega)]
  simp

@[simp] theorem uint32?_ofNat (n : UInt32) : (ofNat n.toNat).uint32? = some n := by
  have hn := n.toNat_lt
  rw [uint32?, ofNat, intWithin?_ofInt (by omega) (by omega)]
  simp

theorem list?_ofList {read : Json → Option α} {write : α → Json}
    (h : ∀ a, read (write a) = some a) (as : List α) : list? read (ofList write as) = some as := by
  show (as.map write).mapM read = some as
  induction as with
  | nil => rfl
  | cons a as ih => simp [h, ih]

theorem optional?_ofOption {read : Json → Option α} {write : α → Json}
    (h : ∀ a, read (write a) = some a) (hnull : ∀ a, write a ≠ .null) (o : Option α) :
    optional? read (some (ofOption write o)) = some o := by
  cases o with
  | none => rfl
  | some a => simp [ofOption, optional?, h, hnull]

theorem named?_record (ms : List (String × Json)) :
    named? (ms.map fun m => (.ofString m.1, m.2)) = some ms := by
  induction ms with
  | nil => rfl
  | cons m ms ih =>
    simp only [named?] at ih
    simp [named?, Points.text?_ofString, ih]

theorem member?_of_mem {ms : List (String × Json)} (hnodup : (ms.map (·.1)).Nodup)
    {m : String × Json} (hm : m ∈ ms) : member? ms m.1 = some (some m.2) := by
  have hfilter : ms.filter (·.1 == m.1) = [m] := by
    induction ms with
    | nil => simp at hm
    | cons u ms ih =>
      rw [List.map_cons, List.nodup_cons] at hnodup
      rcases List.mem_cons.1 hm with rfl | hm
      · have hrest : ms.filter (·.1 == m.1) = [] := by
          refine List.filter_eq_nil_iff.2 fun w hw => ?_
          intro heq
          exact hnodup.1 (List.mem_map.2 ⟨w, hw, eq_of_beq heq⟩)
        simp [hrest]
      · have hu : u.1 ≠ m.1 := fun heq => hnodup.1 (heq ▸ List.mem_map.2 ⟨m, hm, rfl⟩)
        simpa [hu] using ih hnodup.2 hm
  simp only [member?, hfilter]

/-- A record gives each field its own value. -/
theorem fields?_record {ms : List (String × Json)} {names : List String}
    (hnames : ms.map (·.1) = names) (hnodup : names.Nodup) :
    (record ms).fields? names = some (ms.map (some ·.2)) := by
  subst hnames
  have hread : ∀ us : List (String × Json), (∀ u ∈ us, u ∈ ms) →
      (us.map (·.1)).mapM (member? ms) = some (us.map (some ·.2)) := by
    intro us hus
    induction us with
    | nil => rfl
    | cons u us ih =>
      simp [member?_of_mem hnodup (hus u (by simp)), ih fun w hw => hus w (by simp [hw])]
  simp only [record, fields?]
  rw [named?_record]
  exact hread ms fun _ h => h

end Json

open Json

@[simp] theorem FactKind.ofJson?_json (k : FactKind) : ofJson? k.json = some k := by
  simp [ofJson?, json, ofName?_name]

@[simp] theorem Profile.ofJson?_json (p : Profile) : ofJson? p.json = some p := by
  simp [ofJson?, json, ofName?_name]

@[simp] theorem Query.ofJson?_json (q : Query) : ofJson? q.json = some q := by
  simp [ofJson?, json, ofName?_name]

@[simp] theorem Status.ofJson?_json (s : Status) : ofJson? s.json = some s := by
  simp [ofJson?, json, ofName?_name]

theorem Mismatch.ofJson?_json (m : Mismatch) : ofJson? m.json = some m := by
  have h : m.json.fields? ["fact_name", "expected", "actual"] = _ :=
    fields?_record rfl (by decide)
  simp [ofJson?, h, required?]

theorem Tool.ofJson?_json (t : Tool) : ofJson? t.json = some t := by
  have h : t.json.fields? ["name", "version"] = _ := fields?_record rfl (by decide)
  simp [ofJson?, h, required?]

theorem Target.ofJson?_json (t : Target) : ofJson? t.json = some t := by
  have h : t.json.fields? ["arch", "os", "pointer_width"] = _ := fields?_record rfl (by decide)
  simp [ofJson?, h, required?]

theorem EvaluatedFact.ofJson?_json (e : EvaluatedFact) : ofJson? e.json = some e := by
  have h : e.json.fields? ["name", "kind", "expected", "actual", "passed"] = _ :=
    fields?_record rfl (by decide)
  simp [ofJson?, h, required?]

theorem Conclusion.ofJson?_json (c : Conclusion) : ofJson? c.json = some c := by
  have h : c.json.fields? ["status", "failure", "exit_code"] = _ := fields?_record rfl (by decide)
  have hfailure := optional?_ofOption Mismatch.ofJson?_json (fun m => nofun) c.failure
  simp [ofJson?, h, required?, hfailure]

theorem Checksum.ofJson?_json (c : Checksum) : ofJson? c.json = some c := by
  have h : c.json.fields? ["algorithm", "value"] = _ := fields?_record rfl (by decide)
  simp [ofJson?, h, required?]

theorem Artifact.ofJson?_json (a : Artifact) : ofJson? a.json = some a := by
  have h : a.json.fields? ["path", "size_bytes", "hash"] = _ := fields?_record rfl (by decide)
  have hpath := optional?_ofOption text?_ofString (fun s => nofun) a.path
  simp [ofJson?, h, required?, hpath, Checksum.ofJson?_json]

theorem Analysis.ofJson?_json (a : Analysis) : ofJson? a.json = some a := by
  have h : a.json.fields? ["status", "warnings"] = _ := fields?_record rfl (by decide)
  have hwarnings := list?_ofList text?_ofString a.warnings
  simp [ofJson?, h, required?, hwarnings]

end HostAbi
