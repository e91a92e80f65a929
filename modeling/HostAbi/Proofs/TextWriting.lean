import HostAbi.Json.Grammar
import HostAbi.Json.Printer
import Mathlib.Tactic.SplitIfs

/-!
# Writing a JSON text

The text that is written for a value is one of the texts that the grammar has for it, however it is
spaced (`Json.document_ofList_chars`). All that is asked of the value is that its numbers are
literals and its texts hold code points (`Json.Proper`). A code point that stands for no character,
or for one that a text cannot hold, is escaped.
-/

namespace HostAbi

/-- Whether there are only blanks where a spacing has a choice. -/
structure Spacing.Lawful (S : Spacing) : Prop where
  gap : ∀ depth, Blanks (S.gap depth)
  afterKey : ∃ ws, Blanks ws ∧ S.afterKey = ':' :: ws

namespace Spacing

theorem lawful_compact : compact.Lawful := ⟨fun _ => blanks_nil, [], blanks_nil, rfl⟩

theorem lawful_pretty : pretty.Lawful where
  gap depth := by
    intro c hc
    rcases List.mem_cons.1 hc with rfl | hc
    · simp
    · obtain rfl := List.eq_of_mem_replicate hc
      simp
  afterKey := ⟨[' '], by simp [Blanks], rfl⟩

end Spacing

namespace Points

/-- Whether there are no numbers past the last code point. -/
def Proper (ps : Points) : Prop := ∀ p ∈ ps, p < 0x110000

theorem proper_ofString (s : String) : (ofString s).Proper := by
  intro p hp
  obtain ⟨c, -, rfl⟩ := List.mem_map.1 hp
  have hc : c.toNat < 0xD800 ∨ 0xDFFF < c.toNat ∧ c.toNat < 0x110000 := c.valid
  omega

theorem spells_unicodeEscape {p : Nat} {ps : Points} {cs : List Char} (hp : p < 0x10000)
    (h : Spells ps cs) : Spells (p :: ps) (unicodeEscape p ++ cs) := by
  have hdigit : ∀ n, HexDigit (n % 0x10) (Nat.digitChar (n % 0x10)) := fun n =>
    ⟨Nat.mod_lt _ (by decide), .inl rfl⟩
  have hsum : 0x1000 * (p / 0x1000 % 0x10) + 0x100 * (p / 0x100 % 0x10) + 0x10 * (p / 0x10 % 0x10)
      + p % 0x10 = p := by
    omega
  have hspells :=
    h.unicode (hdigit (p / 0x1000)) (hdigit (p / 0x100)) (hdigit (p / 0x10)) (hdigit p)
  rw [hsum] at hspells
  exact hspells

/-- A code point that is no surrogate is that of a character. -/
theorem toNat_ofNat {p : Nat} (hp : p < 0x110000) (hhigh : isHigh p = false)
    (hlow : isLow p = false) : (Char.ofNat p).toNat = p := by
  simp only [isHigh, isLow, Bool.and_eq_false_iff, decide_eq_false_iff_not] at hhigh hlow
  have hvalid : p.isValidChar := by
    unfold Nat.isValidChar
    omega
  rw [Char.ofNat, dif_pos hvalid]
  rfl

theorem spells_escapePoint {p : Nat} {ps : Points} {cs : List Char} (hp : p < 0x110000)
    (h : Spells ps cs) : Spells (p :: ps) (escapePoint p ++ cs) := by
  unfold escapePoint
  split_ifs with hquote hslash hb ht hn hf hr hescape
  · subst hquote
    exact h.short (by simp [shortEscapes])
  · subst hslash
    exact h.short (by simp [shortEscapes])
  · subst hb
    exact h.short (by simp [shortEscapes])
  · subst ht
    exact h.short (by simp [shortEscapes])
  · subst hn
    exact h.short (by simp [shortEscapes])
  · subst hf
    exact h.short (by simp [shortEscapes])
  · subst hr
    exact h.short (by simp [shortEscapes])
  · refine spells_unicodeEscape ?_ h
    simp only [isHigh, isLow, Bool.or_eq_true, Bool.and_eq_true, decide_eq_true_eq] at hescape
    omega
  · simp only [Bool.or_eq_true, not_or, Bool.not_eq_true, decide_eq_true_eq] at hescape
    obtain ⟨⟨hlow, hh⟩, hl⟩ := hescape
    have hchar := toNat_ofNat hp hh hl
    have hne : ∀ c : Char, p ≠ c.toNat → Char.ofNat p ≠ c := by
      rintro _ hc rfl
      exact hc hchar.symm
    have hspells := h.plain (hne '"' hquote) (hne '\\' hslash) (by omega)
    rw [hchar] at hspells
    exact hspells

theorem spells_flatMap : ∀ {ps : Points}, ps.Proper → ps.Spells (ps.flatMap escapePoint)
  | [], _ => .nil
  | p :: ps, h => by
    rw [List.flatMap_cons]
    exact spells_escapePoint (h p (by simp)) (spells_flatMap fun q hq => h q (by simp [hq]))

end Points

namespace Json

/-- Whether all numbers in a value are literals and all its texts hold code points. -/
inductive Proper : Json → Prop
  | null : Proper .null
  | bool (b : Bool) : Proper (.bool b)
  | num {cs : List Char} : Number.isLiteral cs → Proper (.num cs)
  | str {ps : Points} : ps.Proper → Proper (.str ps)
  | arr {vs : List Json} : (∀ v ∈ vs, Proper v) → Proper (.arr vs)
  | obj {ms : List (Points × Json)} : (∀ m ∈ ms, m.1.Proper) → (∀ m ∈ ms, Proper m.2) →
      Proper (.obj ms)

variable {S : Spacing}

theorem items_moreItems (hS : S.Lawful) {depth : Nat} {ws' : List Char} (hws' : Blanks ws') :
    ∀ {v : Json} {vs : List Json} {ws : List Char}, Blanks ws →
      (∀ u ∈ v :: vs, Spells u (u.chars S depth)) →
      Items (v :: vs) (ws ++ v.chars S depth ++ moreItems S depth vs ++ ws')
  | v, [], ws, hws, h => by
    rw [moreItems, List.append_nil]
    exact .one (.mk hws (h v (by simp)) hws')
  | v, u :: us, ws, hws, h => by
    have hv : Item v (ws ++ v.chars S depth ++ []) := .mk hws (h v (by simp)) blanks_nil
    have ih := items_moreItems hS hws' (hS.gap depth) fun w hw => h w (List.mem_cons_of_mem _ hw)
    simpa [moreItems] using Items.more hv ih

theorem member_chars (hS : S.Lawful) {depth : Nat} {ws ws' : List Char} (hws : Blanks ws)
    (hws' : Blanks ws') {k : Points} {v : Json} (hk : k.Proper) (hv : Spells v (v.chars S depth)) :
    Member (k, v) (ws ++ k.quoted ++ S.afterKey ++ v.chars S depth ++ ws') := by
  obtain ⟨gap, hgap, hafter⟩ := hS.afterKey
  have h := Member.mk hws (Points.spells_flatMap hk) blanks_nil (Item.mk hgap hv hws')
  simpa [Points.quoted, hafter] using h

theorem members_moreMembers (hS : S.Lawful) {depth : Nat} {ws' : List Char} (hws' : Blanks ws') :
    ∀ {k : Points} {v : Json} {ms : List (Points × Json)} {ws : List Char}, Blanks ws →
      (∀ m ∈ (k, v) :: ms, m.1.Proper) → (∀ m ∈ (k, v) :: ms, Spells m.2 (m.2.chars S depth)) →
      Members ((k, v) :: ms) (ws ++ k.quoted ++ S.afterKey ++ v.chars S depth
        ++ moreMembers S depth ms ++ ws')
  | k, v, [], ws, hws, hk, h => by
    rw [moreMembers, List.append_nil]
    exact .one (member_chars hS hws hws' (hk (k, v) (by simp)) (h (k, v) (by simp)))
  | k, v, (k', v') :: ms, ws, hws, hk, h => by
    have hm := member_chars hS hws blanks_nil (hk (k, v) (by simp)) (h (k, v) (by simp))
    have ih := members_moreMembers hS hws' (hS.gap depth)
      (fun m hm => hk m (List.mem_cons_of_mem _ hm)) fun m hm => h m (List.mem_cons_of_mem _ hm)
    simpa [moreMembers] using Members.more hm ih

theorem spells_chars (hS : S.Lawful) {v : Json} (h : v.Proper) (depth : Nat) :
    Spells v (v.chars S depth) := by
  induction h generalizing depth with
  | null => exact .null
  | bool b => cases b <;> simp only [chars] <;> constructor
  | num h => exact .num h
  | str h => exact .str (Points.spells_flatMap h)
  | @arr vs _ ih =>
    cases vs with
    | nil => exact .emptyArr blanks_nil
    | cons v vs =>
      have hitems := items_moreItems hS (hS.gap depth) (hS.gap (depth + 1)) fun u hu =>
        ih u hu (depth + 1)
      simpa [chars] using Spells.arr hitems
  | @obj ms hk _ ih =>
    cases ms with
    | nil => exact .emptyObj blanks_nil
    | cons m ms =>
      have hmembers := members_moreMembers hS (hS.gap depth) (hS.gap (depth + 1)) hk fun m hm =>
        ih m hm (depth + 1)
      simpa [chars] using Spells.obj hmembers

/-- What is written for a value is a text of it. -/
theorem document_ofList_chars (hS : S.Lawful) {v : Json} (h : v.Proper) :
    Document v (String.ofList (v.chars S 0)) := by
  have hitem := Item.mk blanks_nil (spells_chars hS h 0) blanks_nil
  simpa [Document] using hitem

theorem document_pretty {v : Json} (h : v.Proper) : Document v v.pretty :=
  document_ofList_chars Spacing.lawful_pretty h

/-- Blanks may follow a text, such as the end of its last line. -/
theorem Document.append_blanks {v : Json} {text blanks : String} (h : Document v text)
    (hblanks : Blanks blanks.toList) : Document v (text ++ blanks) := by
  unfold Document at h ⊢
  rw [String.toList_append]
  generalize text.toList = cs at h
  cases h with
  | mk hws hspells hws' =>
    rw [List.append_assoc]
    refine .mk hws hspells fun c hc => ?_
    rcases List.mem_append.1 hc with hc | hc
    · exact hws' c hc
    · exact hblanks c hc

end Json

end HostAbi
