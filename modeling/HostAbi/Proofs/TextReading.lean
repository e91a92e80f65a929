import HostAbi.Json.Grammar
import HostAbi.Json.Parser
import Mathlib.Data.List.TakeDrop
import Mathlib.Tactic.SplitIfs

/-!
# Reading a JSON text

What the grammar derives is read, and as the value that it is derived for
(`Json.parse?_of_document`). So a text is one value only (`Json.Document.unique`).

The scanner is followed from between two tokens to between two tokens, whatever it has found
before: a word or a number is over once something comes that does not go on with it (`Ends`). The
parser is followed from where a value may begin to where it is complete, whatever is still open.
-/

namespace HostAbi

namespace Number

/-- Whether a list of characters is the rest of another behind characters of numbers. -/
def Leaves (cs rest : List Char) : Prop :=
  ∃ front, cs = front ++ rest ∧ ∀ c ∈ front, Scanner.isNumberChar c

theorem Leaves.refl (cs : List Char) : Leaves cs cs := ⟨[], rfl, by simp⟩

theorem Leaves.trans {cs ds es : List Char} (h : Leaves cs ds) (h' : Leaves ds es) :
    Leaves cs es := by
  obtain ⟨front, rfl, hf⟩ := h
  obtain ⟨front', rfl, hf'⟩ := h'
  refine ⟨front ++ front', by simp, fun c hc => ?_⟩
  rcases List.mem_append.1 hc with hc | hc
  · exact hf c hc
  · exact hf' c hc

theorem Leaves.cons {c : Char} {cs rest : List Char} (hc : Scanner.isNumberChar c)
    (h : Leaves cs rest) : Leaves (c :: cs) rest := by
  obtain ⟨front, rfl, hf⟩ := h
  exact ⟨c :: front, rfl, by simpa [hc] using hf⟩

theorem isNumberChar_of_isDigit {c : Char} (h : c.isDigit) : Scanner.isNumberChar c := by
  simp [Scanner.isNumberChar, h]

theorem afterDigits?_eq_some {cs rest : List Char} (h : afterDigits? cs = some rest) :
    ∃ d ds, cs = d :: ds ++ rest ∧ ∀ c ∈ d :: ds, c.isDigit := by
  unfold afterDigits? at h
  rw [List.span_eq_takeWhile_dropWhile] at h
  rcases hd : cs.takeWhile Char.isDigit with _ | ⟨d, ds⟩ <;> rw [hd] at h
  · simp at h
  · obtain rfl := Option.some.inj h
    refine ⟨d, ds, ?_, fun c hc => ?_⟩
    · rw [← hd, List.takeWhile_append_dropWhile]
    · rw [← hd] at hc
      exact List.all_eq_true.1 List.all_takeWhile c hc

theorem afterDigits?_leaves {cs rest : List Char} (h : afterDigits? cs = some rest) :
    Leaves cs rest := by
  obtain ⟨d, ds, rfl, hds⟩ := afterDigits?_eq_some h
  exact ⟨d :: ds, rfl, fun c hc => isNumberChar_of_isDigit (hds c hc)⟩

/-- The digits in front of the point are at least one. -/
theorem afterWhole?_eq_some {cs rest : List Char} (h : afterWhole? cs = some rest) :
    ∃ d ds, cs = d :: ds ∧ d.isDigit ∧ Leaves cs rest := by
  unfold afterWhole? at h
  split at h
  · obtain rfl := Option.some.inj h
    exact ⟨_, _, rfl, rfl, (Leaves.refl _).cons rfl⟩
  · obtain ⟨d, ds, rfl, hds⟩ := afterDigits?_eq_some h
    exact ⟨d, ds ++ rest, rfl, hds d (by simp), afterDigits?_leaves h⟩

theorem afterFraction?_leaves {cs rest : List Char} (h : afterFraction? cs = some rest) :
    Leaves cs rest := by
  unfold afterFraction? at h
  split at h
  · exact (afterDigits?_leaves h).cons rfl
  · obtain rfl := Option.some.inj h
    exact .refl _

theorem leaves_afterSign (cs : List Char) : Leaves cs (afterSign cs) := by
  unfold afterSign
  split
  · exact (Leaves.refl _).cons rfl
  · exact (Leaves.refl _).cons rfl
  · exact .refl _

theorem afterExponent?_leaves {cs rest : List Char} (h : afterExponent? cs = some rest) :
    Leaves cs rest := by
  unfold afterExponent? at h
  split at h
  · exact ((leaves_afterSign _).trans (afterDigits?_leaves h)).cons rfl
  · exact ((leaves_afterSign _).trans (afterDigits?_leaves h)).cons rfl
  · obtain rfl := Option.some.inj h
    exact .refl _

/-- A literal begins with a sign or a digit and has no other characters than numbers have. -/
theorem of_isLiteral {cs : List Char} (h : isLiteral cs) :
    ∃ c ds, cs = c :: ds ∧ (c = '-' ∨ c.isDigit) ∧ ∀ d ∈ ds, Scanner.isNumberChar d := by
  have hall : ∀ {ds : List Char}, Leaves ds [] → ∀ d ∈ ds, Scanner.isNumberChar d := by
    rintro ds ⟨front, rfl, hf⟩
    simpa using hf
  simp only [isLiteral, beq_iff_eq, Option.bind_eq_some_iff] at h
  obtain ⟨exponent, ⟨fraction, hwhole, hfraction⟩, hexponent⟩ := h
  obtain ⟨d, ds, hcs, hd, hleaves⟩ := afterWhole?_eq_some hwhole
  have hend := hall ((hleaves.trans (afterFraction?_leaves hfraction)).trans
    (afterExponent?_leaves hexponent))
  rw [hcs] at hend
  unfold afterMinus at hcs
  split at hcs
  · exact ⟨'-', _, rfl, .inl rfl, hcs ▸ hend⟩
  · exact ⟨d, ds, hcs, .inr hd, fun c hc => hend c (List.mem_cons_of_mem _ hc)⟩

end Number

namespace Scanner

variable {c : Char} {cs ds ws rest : List Char} {ts us : List Token} {t : Token}

/-- The tokens found once the characters have been scanned and the text is over. -/
def run (s : Scanner) (cs : List Char) : Option (List Token) := (cs.foldlM step? s).bind finish?

theorem run_cons {s s' : Scanner} (h : s.step? c = some s') : s.run (c :: cs) = s'.run cs := by
  simp [run, List.foldlM_cons, h]

/-- Whether a word or number in front of some characters is over. -/
def Ends (rest : List Char) : Prop :=
  ∀ c ∈ rest.head?, isWordChar c = false ∧ isNumberChar c = false

theorem Ends.append (h : Ends cs) (h' : Ends rest) : Ends (cs ++ rest) := by
  cases cs with
  | nil => exact h'
  | cons c cs => exact h

theorem ends_blanks (h : Blanks ws) : Ends ws := by
  intro c hc
  have hmem := h c (List.mem_of_mem_head? hc)
  simp only [List.mem_cons, List.not_mem_nil, or_false] at hmem
  rcases hmem with rfl | rfl | rfl | rfl <;> exact ⟨rfl, rfl⟩

theorem ends_punctuation (h : Token.ofPunctuation? c = some t) (cs : List Char) :
    Ends (c :: cs) := by
  intro d hd
  obtain rfl := Option.some.inj hd
  unfold Token.ofPunctuation? at h
  split at h <;> first | exact ⟨rfl, rfl⟩ | cases h

theorem run_word (seen : List Char) (h : Ends rest) (ht : Token.ofWord? seen.reverse = some t)
    (found : List Token) : run ⟨.word seen, found⟩ rest = run ⟨.between, t :: found⟩ rest := by
  cases rest with
  | nil => simp [run, finish?, ht]
  | cons c rest =>
    have hc := (h c rfl).1
    simp [run, List.foldlM_cons, step?, hc, ht]

theorem run_number {seen : List Char} (h : Ends rest) (ht : Token.ofNumber? seen.reverse = some t)
    (found : List Token) : run ⟨.number seen, found⟩ rest = run ⟨.between, t :: found⟩ rest := by
  cases rest with
  | nil => simp [run, finish?, ht]
  | cons c rest =>
    have hc := (h c rfl).2
    simp [run, List.foldlM_cons, step?, hc, ht]

/-- Whether characters are scanned as tokens, whatever has been found before and whatever comes
next, as long as it does not go on with the last of them. -/
def Scans (cs : List Char) (ts : List Token) : Prop :=
  ∀ found rest, Ends rest →
    run ⟨.between, found⟩ (cs ++ rest) = run ⟨.between, ts.reverse ++ found⟩ rest

theorem Scans.append (h : Scans cs ts) (h' : Scans ds us) (hds : Ends ds) :
    Scans (cs ++ ds) (ts ++ us) := by
  intro found rest hrest
  rw [List.append_assoc, h found _ (hds.append hrest), h' _ rest hrest, List.reverse_append,
    List.append_assoc]

theorem Scans.blanks (h : Scans ds us) : ∀ {ws : List Char}, Blanks ws → Scans (ws ++ ds) us
  | [], _ => h
  | w :: ws, hws => by
    intro found rest hrest
    have hblank : step? ⟨.between, found⟩ w = some ⟨.between, found⟩ := by
      have hmem := hws w (by simp)
      simp only [List.mem_cons, List.not_mem_nil, or_false] at hmem
      rcases hmem with rfl | rfl | rfl | rfl <;> rfl
    have hmore : Blanks ws := fun c hc => hws c (List.mem_cons_of_mem _ hc)
    have ih := Scans.blanks h hmore
    rw [← ih found rest hrest]
    exact run_cons hblank

theorem scans_blanks (h : Blanks ws) : Scans ws [] := by
  have hnil : Scans [] [] := fun _ _ _ => rfl
  simpa using hnil.blanks h

theorem Scans.punctuation (ht : Token.ofPunctuation? c = some t) (h : Scans ds us) :
    Scans (c :: ds) (t :: us) := by
  intro found rest hrest
  have hstep : step? ⟨.between, found⟩ c = some ⟨.between, t :: found⟩ := by
    unfold Token.ofPunctuation? at ht
    split at ht <;> first | (obtain rfl := Option.some.inj ht; rfl) | cases ht
  rw [List.reverse_cons, List.append_assoc]
  exact (run_cons hstep).trans (h _ rest hrest)

theorem scans_punctuation (ht : Token.ofPunctuation? c = some t) : Scans [c] [t] :=
  Scans.punctuation ht fun _ _ _ => rfl

theorem scans_word (ht : Token.ofWord? cs = some t) : Scans cs [t] := by
  intro found rest hrest
  unfold Token.ofWord? at ht
  split_ifs at ht with hnull htrue hfalse <;> obtain rfl := Option.some.inj ht
  · subst hnull
    exact run_word ['l', 'l', 'u', 'n'] hrest rfl found
  · subst htrue
    exact run_word ['e', 'u', 'r', 't'] hrest rfl found
  · subst hfalse
    exact run_word ['e', 's', 'l', 'a', 'f'] hrest rfl found

theorem run_number_append (h : ∀ d ∈ ds, isNumberChar d) (seen : List Char) (found : List Token) :
    run ⟨.number seen, found⟩ (ds ++ rest) = run ⟨.number (ds.reverse ++ seen), found⟩ rest := by
  induction ds generalizing seen with
  | nil => rfl
  | cons d ds ih =>
    have hstep : step? ⟨.number seen, found⟩ d = some ⟨.number (d :: seen), found⟩ := by
      simp [step?, h d (by simp)]
    rw [List.cons_append, run_cons hstep, ih fun c hc => h c (List.mem_cons_of_mem _ hc)]
    simp

theorem scans_number (h : Number.isLiteral cs) : Scans cs [.scalar (.num cs)] := by
  intro found rest hrest
  obtain ⟨c, ds, rfl, hc, hds⟩ := Number.of_isLiteral h
  have hblank : ¬isBlank c := by
    intro hb
    simp only [isBlank, Bool.or_eq_true, beq_iff_eq] at hb
    rcases hb with ((rfl | rfl) | rfl) | rfl <;> simp at hc
  have hquote : c ≠ '"' := by
    rintro rfl
    simp at hc
  have hstart : step? ⟨.between, found⟩ c = some ⟨.number [c], found⟩ := by
    show start? found c = _
    rw [start?, if_neg hblank, if_neg hquote, if_pos (by simpa using hc)]
  have htoken : Token.ofNumber? (ds.reverse ++ [c]).reverse = some (.scalar (.num (c :: ds))) := by
    simp [Token.ofNumber?, h]
  calc run ⟨.between, found⟩ (c :: (ds ++ rest))
      = run ⟨.number [c], found⟩ (ds ++ rest) := run_cons hstart
    _ = run ⟨.number (ds.reverse ++ [c]), found⟩ rest := run_number_append hds _ _
    _ = _ := run_number hrest htoken found

theorem hexValue?_of_hexDigit {n : Nat} (h : HexDigit n c) : hexValue? c = some n := by
  obtain ⟨hn, rfl | rfl⟩ := h
  · revert n
    decide
  · revert n
    decide

theorem escapedPoint?_of_mem {p : Nat} (h : (c, p) ∈ shortEscapes) :
    c ≠ 'u' ∧ escapedPoint? c = some p := by
  simp only [shortEscapes, List.mem_cons, Prod.mk.injEq, List.not_mem_nil, or_false] at h
  rcases h with h | h | h | h | h | h | h | h <;> obtain ⟨rfl, rfl⟩ := h <;> decide

theorem run_string {ps : Points} (h : ps.Spells cs) (seen : Points) (found : List Token) :
    run ⟨.string seen, found⟩ (cs ++ '"' :: rest)
      = run ⟨.between, .scalar (.str (seen.reverse ++ ps)) :: found⟩ rest := by
  induction h generalizing seen with
  | nil =>
    refine run_cons ?_
    simp [step?]
  | @plain c ps cs hquote hslash hlow _ ih =>
    have hstep : step? ⟨.string seen, found⟩ c = some ⟨.string (c.toNat :: seen), found⟩ := by
      simp only [step?, if_neg hquote, if_neg hslash, if_neg (Nat.not_lt.2 hlow)]
    rw [List.cons_append, run_cons hstep, ih]
    simp
  | @short c p ps cs hmem _ ih =>
    obtain ⟨hu, hp⟩ := escapedPoint?_of_mem hmem
    have hslash : step? ⟨.string seen, found⟩ '\\' = some ⟨.escape seen, found⟩ := rfl
    have hstep : step? ⟨.escape seen, found⟩ c = some ⟨.string (p :: seen), found⟩ := by
      simp only [step?, if_neg hu, hp, Option.map_some]
    rw [List.cons_append, List.cons_append, run_cons hslash, run_cons hstep, ih]
    simp
  | @unicode a b c d i j k l ps cs ha hb hc hd _ ih =>
    have hslash : step? ⟨.string seen, found⟩ '\\' = some ⟨.escape seen, found⟩ := rfl
    have hu : step? ⟨.escape seen, found⟩ 'u' = some ⟨.unicode seen 4 0, found⟩ := rfl
    have hdigit : ∀ {n value : Nat} {e : Char} (left : Nat), HexDigit n e → 1 < left →
        step? ⟨.unicode seen left value, found⟩ e
          = some ⟨.unicode seen (left - 1) (16 * value + n), found⟩ := by
      intro n value e left he hleft
      simp [step?, hexValue?_of_hexDigit he, Nat.not_le.2 hleft]
    have hlast : ∀ {n value : Nat} {e : Char}, HexDigit n e →
        step? ⟨.unicode seen 1 value, found⟩ e
          = some ⟨.string ((16 * value + n) :: seen), found⟩ := by
      intro n value e he
      simp [step?, hexValue?_of_hexDigit he]
    have hsum : 16 * (16 * (16 * (16 * 0 + i) + j) + k) + l
        = 0x1000 * i + 0x100 * j + 0x10 * k + l := by
      omega
    simp only [List.cons_append]
    rw [run_cons hslash, run_cons hu, run_cons (hdigit 4 ha (by decide)),
      run_cons (hdigit 3 hb (by decide)), run_cons (hdigit 2 hc (by decide)), run_cons (hlast hd),
      ih, hsum]
    simp

theorem Scans.string {ps : Points} (hps : ps.Spells cs) (h : Scans ds us) :
    Scans ('"' :: cs ++ '"' :: ds) (.scalar (.str ps) :: us) := by
  intro found rest hrest
  have hquote : step? ⟨.between, found⟩ '"' = some ⟨.string [], found⟩ := rfl
  have hlist : '"' :: cs ++ '"' :: ds ++ rest = '"' :: (cs ++ '"' :: (ds ++ rest)) := by simp
  rw [hlist, run_cons hquote, run_string hps, h _ rest hrest]
  simp

theorem Scans.tokens? (h : Scans cs ts) : tokens? cs = some ts := by
  have hend : Ends [] := by simp [Ends]
  have hrun := h [] [] hend
  rw [List.append_nil] at hrun
  exact hrun.trans (by simp [run, finish?])

end Scanner

namespace Parser

variable {ts us : List Token} {t : Token} {v : Json} {k : Points} {stack : List Frame}

/-- Whether tokens are one value, wherever it may begin. -/
def Builds (ts : List Token) (v : Json) : Prop :=
  ∀ stack, ts.foldlM step? ⟨.value, stack⟩ = some ⟨.after v, stack⟩

/-- Whether tokens are the further items of an open array. -/
def BuildsItems (ts : List Token) (vs : List Json) : Prop :=
  ∀ done stack, (ts ++ [Token.closeArr]).foldlM step? ⟨.value, .arr done :: stack⟩
    = some ⟨.after (.arr (done.reverse ++ vs)), stack⟩

/-- Whether tokens are the further members of an open object. -/
def BuildsMembers (ts : List Token) (ms : List (Points × Json)) : Prop :=
  ∀ done stack, (ts ++ [Token.closeObj]).foldlM step? ⟨.key done, stack⟩
    = some ⟨.after (.obj (done.reverse ++ ms)), stack⟩

theorem builds_scalar (v : Json) : Builds [.scalar v] v := fun _ => rfl

theorem Builds.one (h : Builds ts v) : BuildsItems ts [v] := by
  intro done stack
  rw [List.foldlM_append, h]
  simp [step?]

theorem Builds.more {vs : List Json} (h : Builds ts v) (h' : BuildsItems us vs) :
    BuildsItems (ts ++ .comma :: us) (v :: vs) := by
  intro done stack
  rw [List.append_assoc, List.foldlM_append, h]
  exact (h' (v :: done) stack).trans (by simp)

/-- Tokens of a member, up to where its value is complete. -/
theorem foldlM_member (h : Builds ts v) (k : Points) (done : List (Points × Json))
    (stack : List Frame) : (Token.scalar (.str k) :: .colon :: ts).foldlM step? ⟨.key done, stack⟩
      = some ⟨.after v, .obj done k :: stack⟩ :=
  h (.obj done k :: stack)

theorem Builds.oneMember (h : Builds ts v) (k : Points) :
    BuildsMembers (.scalar (.str k) :: .colon :: ts) [(k, v)] := by
  intro done stack
  rw [List.foldlM_append, foldlM_member h]
  simp [step?]

theorem Builds.moreMembers {ms : List (Points × Json)} (h : Builds ts v) (k : Points)
    (h' : BuildsMembers us ms) :
    BuildsMembers (.scalar (.str k) :: .colon :: ts ++ .comma :: us) ((k, v) :: ms) := by
  intro done stack
  rw [List.append_assoc, List.foldlM_append, foldlM_member h]
  exact (h' ((k, v) :: done) stack).trans (by simp)

/-- The first item is read like any other, as a bracket that closes is none. -/
theorem step?_firstItem (t : Token) (ht : step? ⟨.value, .arr [] :: stack⟩ t ≠ none) :
    step? ⟨.firstItem, stack⟩ t = step? ⟨.value, .arr [] :: stack⟩ t := by
  cases t with
  | closeArr => exact absurd rfl ht
  | _ => rfl

theorem step?_firstKey (t : Token) (ht : step? ⟨.key [], stack⟩ t ≠ none) :
    step? ⟨.firstKey, stack⟩ t = step? ⟨.key [], stack⟩ t := by
  cases t with
  | closeObj => exact absurd rfl ht
  | scalar v => cases v <;> rfl
  | _ => rfl

/-- Two parsers that agree on the next token, unless it is refused, agree on all that is read. -/
theorem foldlM_congr {p q r : Parser} (hne : ts ≠ [])
    (hstep : ∀ t, step? q t ≠ none → step? p t = step? q t)
    (h : ts.foldlM step? q = some r) : ts.foldlM step? p = some r := by
  cases ts with
  | nil => exact absurd rfl hne
  | cons t ts =>
    rw [List.foldlM_cons] at h ⊢
    rw [hstep t, h]
    intro hnone
    rw [hnone] at h
    cases h

theorem BuildsItems.builds {vs : List Json} (h : BuildsItems ts vs) :
    Builds (.openArr :: (ts ++ [.closeArr])) (.arr vs) := by
  intro stack
  have hne : ts ++ [Token.closeArr] ≠ [] := by simp
  show (ts ++ [Token.closeArr]).foldlM step? ⟨.firstItem, stack⟩ = _
  exact foldlM_congr hne step?_firstItem (h [] stack)

theorem BuildsMembers.builds {ms : List (Points × Json)} (h : BuildsMembers ts ms) :
    Builds (.openObj :: (ts ++ [.closeObj])) (.obj ms) := by
  intro stack
  have hne : ts ++ [Token.closeObj] ≠ [] := by simp
  show (ts ++ [Token.closeObj]).foldlM step? ⟨.firstKey, stack⟩ = _
  exact foldlM_congr hne step?_firstKey (h [] stack)

end Parser

namespace Json

open HostAbi.Scanner HostAbi.Parser

mutual

/-- The characters of a value are tokens of that value. -/
theorem Spells.reads : ∀ {v : Json} {cs : List Char}, Spells v cs → ∃ ts, Scans cs ts ∧ Builds ts v
  | _, _, .null => ⟨_, scans_word rfl, builds_scalar _⟩
  | _, _, .true => ⟨_, scans_word rfl, builds_scalar _⟩
  | _, _, .false => ⟨_, scans_word rfl, builds_scalar _⟩
  | _, _, .num h => ⟨_, scans_number h, builds_scalar _⟩
  | _, _, .str h => ⟨_, Scans.string h fun _ _ _ => rfl, builds_scalar _⟩
  | _, _, .emptyArr hws =>
    ⟨[.openArr, .closeArr], .punctuation rfl ((scans_punctuation rfl).blanks hws), fun _ => rfl⟩
  | _, _, .emptyObj hws =>
    ⟨[.openObj, .closeObj], .punctuation rfl ((scans_punctuation rfl).blanks hws), fun _ => rfl⟩
  | _, _, .arr h =>
    have ⟨_, hs, hb⟩ := h.reads
    ⟨_, .punctuation rfl (hs.append (scans_punctuation rfl) (ends_punctuation rfl _)), hb.builds⟩
  | _, _, .obj h =>
    have ⟨_, hs, hb⟩ := h.reads
    ⟨_, .punctuation rfl (hs.append (scans_punctuation rfl) (ends_punctuation rfl _)), hb.builds⟩

theorem Item.reads : ∀ {v : Json} {cs : List Char}, Item v cs → ∃ ts, Scans cs ts ∧ Builds ts v
  | _, _, .mk hws h hws' => by
    obtain ⟨ts, hs, hb⟩ := h.reads
    refine ⟨ts, ?_, hb⟩
    rw [List.append_assoc, ← List.append_nil ts]
    exact (hs.append (scans_blanks hws') (ends_blanks hws')).blanks hws

theorem Items.reads : ∀ {vs : List Json} {cs : List Char}, Items vs cs →
    ∃ ts, Scans cs ts ∧ BuildsItems ts vs
  | _, _, .one h =>
    have ⟨_, hs, hb⟩ := h.reads
    ⟨_, hs, hb.one⟩
  | _, _, .more h h' =>
    have ⟨_, hs, hb⟩ := h.reads
    have ⟨_, hs', hb'⟩ := h'.reads
    ⟨_, hs.append (.punctuation rfl hs') (ends_punctuation rfl _), hb.more hb'⟩

theorem Member.reads : ∀ {m : Points × Json} {cs : List Char}, Member m cs →
    ∃ ts, Scans cs (.scalar (.str m.1) :: .colon :: ts) ∧ Builds ts m.2
  | _, _, .mk hws hk hws' h => by
    obtain ⟨ts, hs, hb⟩ := h.reads
    refine ⟨ts, ?_, hb⟩
    have hscan := (Scans.string hk ((Scans.punctuation (c := ':') rfl hs).blanks hws')).blanks hws
    simpa using hscan

theorem Members.reads : ∀ {ms : List (Points × Json)} {cs : List Char}, Members ms cs →
    ∃ ts, Scans cs ts ∧ BuildsMembers ts ms
  | _, _, .one h =>
    have ⟨_, hs, hb⟩ := h.reads
    ⟨_, hs, hb.oneMember _⟩
  | _, _, .more h h' =>
    have ⟨_, hs, hb⟩ := h.reads
    have ⟨_, hs', hb'⟩ := h'.reads
    ⟨_, hs.append (.punctuation rfl hs') (ends_punctuation rfl _), hb.moreMembers _ hb'⟩

end

/-- A text of the grammar is read as its value. -/
theorem parse?_of_document {v : Json} {text : String} (h : Document v text) :
    parse? text = some v := by
  obtain ⟨ts, hs, hb⟩ := h.reads
  have hbuild : ts.foldlM Parser.step? {} = some ⟨.after v, []⟩ := hb []
  simp [parse?, hs.tokens?, hbuild, Parser.finish?]

theorem Document.unique {v w : Json} {text : String} (h : Document v text)
    (h' : Document w text) : w = v :=
  Option.some.inj ((parse?_of_document h').symm.trans (parse?_of_document h))

end Json

end HostAbi
