import HostAbi.Proofs.PieceOrder
import Mathlib.Data.List.TakeDrop
import Mathlib.Data.List.TakeWhile

/-!
# Reading back a command line

Words that are written for some pieces are read as these pieces, whichever of their spellings are
taken (`Scope.pieces_of_spelled`). As the order is of no matter, a command line asks for what was
meant however it is arranged, and is a mistake if an option is repeated or stands in front of the
subcommand (`Request.ofWords_arranged`).
-/

namespace HostAbi

/-! ## The form of a word -/

section Form

variable {name : String}

theorem not_looksLikeOption {word : String} (h : word.toList.head? ≠ some '-') :
    ¬LooksLikeOption word := by
  rintro ⟨c, cs, hword⟩
  exact h (by rw [hword, List.head?_cons])

theorem wordForm_plain {word : String} (h : ¬LooksLikeOption word) : wordForm word = .plain := by
  unfold wordForm
  split
  · exact absurd ⟨_, _, ‹_›⟩ h
  · exact absurd ⟨_, _, ‹_›⟩ h
  · exact absurd ⟨_, _, ‹_›⟩ h
  · rfl

theorem span_long (heq : '=' ∉ name.toList) (rest : List Char) :
    (name.toList ++ '=' :: rest).span (· ≠ '=') = (name.toList, '=' :: rest) ∧
      name.toList.span (· ≠ '=') = (name.toList, []) := by
  have hall : ∀ c ∈ name.toList, decide (c ≠ '=') := by
    rintro c hc
    rw [decide_eq_true_eq]
    rintro rfl
    exact heq hc
  constructor
  · rw [List.span_eq_takeWhile_dropWhile, List.takeWhile_append_of_pos hall,
      List.dropWhile_append_of_pos hall]
    simp
  · rw [List.span_eq_takeWhile_dropWhile, List.takeWhile_eq_self_iff.2 hall,
      List.dropWhile_eq_nil_iff.2 hall]

theorem wordForm_long (hne : name ≠ "") (heq : '=' ∉ name.toList) :
    wordForm ("--" ++ name) = .long name none := by
  have hword : ("--" ++ name).toList = '-' :: '-' :: name.toList := by simp
  have hspan := (span_long heq []).2
  obtain ⟨c, cs, hname⟩ := List.exists_cons_of_ne_nil (l := name.toList) (by simpa using hne)
  rw [hname] at hword hspan
  rw [wordForm, hword]
  simp only [hspan]
  rw [← hname, String.ofList_toList]

theorem wordForm_attached (hne : name ≠ "") (heq : '=' ∉ name.toList) (value : String) :
    wordForm ("--" ++ name ++ "=" ++ value) = .long name (some value) := by
  have hword : ("--" ++ name ++ "=" ++ value).toList =
      '-' :: '-' :: (name.toList ++ '=' :: value.toList) := by simp
  have hspan := (span_long heq value.toList).1
  obtain ⟨c, cs, hname⟩ := List.exists_cons_of_ne_nil (l := name.toList) (by simpa using hne)
  rw [hname] at hword hspan
  rw [wordForm, hword]
  simp only [List.cons_append] at hspan ⊢
  simp only [hspan]
  rw [← hname, String.ofList_toList, String.ofList_toList]

theorem OptionName.wordForm_long (o : OptionName) :
    wordForm ("--" ++ o.long) = .long o.long none :=
  HostAbi.wordForm_long (by cases o <;> decide) (by cases o <;> decide)

theorem OptionName.wordForm_attached (o : OptionName) (value : String) :
    wordForm ("--" ++ o.long ++ "=" ++ value) = .long o.long (some value) :=
  HostAbi.wordForm_attached (by cases o <;> decide) (by cases o <;> decide) value

theorem Flag.wordForm_long (f : Flag) : wordForm ("--" ++ f.long) = .long f.long none :=
  HostAbi.wordForm_long (by cases f <;> decide) (by cases f <;> decide)

theorem Flag.wordForm_short (f : Flag) :
    wordForm (String.ofList ['-', f.short]) = .short [f.short] := by
  rw [wordForm, String.toList_ofList]
  cases f <;> rfl

end Form

/-! ## The pieces of some words -/

namespace Scope

variable {S : Scope}

/-- Whether a piece is one that a command line of a scope can have. -/
def Knows (S : Scope) : Piece → Prop
  | .option o _ => o ∈ S.options
  | .flag f => f ∈ S.flags
  | .operand _ => True
  | .invalid => False

theorem option?_long {o : OptionName} (h : o ∈ S.options) : S.option? o.long = some o := by
  revert h
  cases S <;> cases o <;> decide

theorem flag?_long {f : Flag} (h : f ∈ S.flags) : S.flag? f.long = some f := by
  revert h
  cases S <;> cases f <;> decide

theorem shortFlag?_short {f : Flag} (h : f ∈ S.flags) : S.shortFlag? f.short = some f := by
  revert h
  cases S <;> cases f <;> decide

/-- No flag has the name of an option. -/
theorem flag?_option (S : Scope) (o : OptionName) : S.flag? o.long = none := by
  cases S <;> cases o <;> decide

theorem pieces_of_spelling {p : Piece} {ws : List String} (h : p.Spelling ws) (hp : S.Knows p)
    (rest : List String) : S.pieces (ws ++ rest) = p :: S.pieces rest := by
  cases h with
  | @spaced o value hvalue =>
    show S.pieces (("--" ++ o.long) :: value :: rest) = _
    simp only [pieces, o.wordForm_long, S.flag?_option, option?_long hp, wordForm_plain hvalue]
  | @attached o value =>
    show S.pieces (("--" ++ o.long ++ "=" ++ value) :: rest) = _
    simp only [pieces, o.wordForm_attached, option?_long hp]
  | @long f =>
    show S.pieces (("--" ++ f.long) :: rest) = _
    simp only [pieces, f.wordForm_long, flag?_long hp]
  | @short f =>
    show S.pieces (String.ofList ['-', f.short] :: rest) = _
    simp only [pieces, f.wordForm_short, List.map_cons, shortFlag?_short hp]
    rfl
  | @operand s hs =>
    show S.pieces (s :: rest) = _
    simp only [pieces, wordForm_plain hs]

theorem pieces_separator (S : Scope) (words : List String) :
    S.pieces ("--" :: words) = words.map .operand := by
  have hform : wordForm "--" = .separator := rfl
  simp only [pieces, hform]

/-- Words that are written for some pieces are read as these pieces. -/
theorem pieces_of_spelled {ps : List Piece} {ws : List String} (h : Spelled ps ws)
    (hps : ∀ p ∈ ps, S.Knows p) : S.pieces ws = ps := by
  induction h with
  | nil => rw [pieces]
  | cons hp _ ih =>
    rw [pieces_of_spelling hp (hps _ (by simp)), ih fun p hp => hps p (List.mem_cons_of_mem _ hp)]
  | separated => exact S.pieces_separator _

/-- A word behind words that are written for some pieces is an operand, unless it looks like
something else. -/
theorem exists_pieces_append {ps : List Piece} {ws : List String} {word : String}
    (h : Spelled ps ws) (hps : ∀ p ∈ ps, S.Knows p) (hword : ¬LooksLikeOption word)
    (rest : List String) : ∃ qs, S.pieces (ws ++ word :: rest) = ps ++ .operand word :: qs := by
  induction h with
  | nil =>
    refine ⟨S.pieces rest, ?_⟩
    exact pieces_of_spelling (.operand hword) trivial rest
  | cons hp _ ih =>
    obtain ⟨qs, hqs⟩ := ih fun p hp => hps p (List.mem_cons_of_mem _ hp)
    refine ⟨qs, ?_⟩
    rw [List.append_assoc, pieces_of_spelling hp (hps _ (by simp)), hqs, List.cons_append]
  | separated =>
    refine ⟨rest.map .operand, ?_⟩
    rw [List.cons_append, S.pieces_separator, List.map_append, List.map_cons]

end Scope

/-! ## Taking up the pieces -/

namespace Draft

variable {S : Scope} {d d' : Draft} {p q : Piece} {ps : List Piece}

/-- Nothing but a call for help or for the version ends the reading other than as a mistake. -/
theorem add_eq_error {s : Stop} (h : add S d p = .error s) (hhelp : p ≠ .flag .help)
    (hversion : p ≠ .flag .version) : s = .usageError := by
  have hset : ∀ {α : Type} {old value : Option α} {f : Option α → Draft},
      (do return f (← setOnce old value) : Except Stop Draft) = .error s → s = .usageError := by
    intro α old value f hf
    cases old <;> cases value <;>
      simp_all [setOnce, bind, Except.bind, pure, Except.pure]
  cases p with
  | option name value => cases name <;> exact hset h
  | flag f =>
    cases f with
    | verbose =>
      rcases hv : d.verbose with _ | _ <;> simp_all [add]
    | help => exact absurd rfl hhelp
    | version => exact absurd rfl hversion
  | operand path =>
    by_cases hS : S = .audit
    · rw [add, if_pos hS] at h
      exact hset h
    · rw [add, if_neg hS] at h
      exact (Except.error.inj h).symm
  | invalid => exact (Except.error.inj h).symm

theorem foldlM_add_eq_error {s : Stop} (hps : ∀ p ∈ ps, p ≠ .flag .help ∧ p ≠ .flag .version)
    (h : ps.foldlM (add S) d = .error s) : s = .usageError := by
  induction ps generalizing d with
  | nil => cases h
  | cons p ps ih =>
    rw [List.foldlM_cons] at h
    rcases hadd : add S d p with s' | e <;> rw [hadd] at h
    · obtain rfl := Except.error.inj h
      exact add_eq_error hadd (hps p (by simp)).1 (hps p (by simp)).2
    · exact ih (fun q hq => hps q (List.mem_cons_of_mem p hq)) h

/-- What a repeated piece sets was set before. -/
theorem Adds.not_repeats {e e' : Draft} (h : Adds S d p e) (hq : q.Repeats p) : ¬Adds S e q e' := by
  intro h'
  cases hq with
  | option =>
    cases h with
    | profile => cases h' with | profile hold => cases hold
    | format => cases h' with | format hold => cases hold
    | out => cases h' with | out hold => cases hold
  | flag =>
    cases h with
    | verbose => cases h' with | verbose hold => cases hold

theorem foldlM_add_of_repeats (hp : p ∈ ps) (hq : q.Repeats p) :
    (q :: ps).foldlM (add S) d ≠ .ok d' := by
  intro h
  -- As the order does not matter, the piece that is repeated may come right behind the first.
  have hperm : (q :: ps).Perm (p :: q :: ps.erase p) :=
    ((List.perm_cons_erase hp).cons q).trans (.swap p q _)
  obtain ⟨e, hadd, h⟩ := foldlM_add_cons_eq_ok.1 (foldlM_add_perm hperm h)
  obtain ⟨e', hadd', -⟩ := foldlM_add_cons_eq_ok.1 h
  exact hadd.not_repeats hq hadd'

/-- The pieces of a draft give the draft. -/
theorem foldlM_add_pieces (hout : d.out ≠ some "") (hpath : d.path ≠ some "")
    (hS : d.path = none ∨ S = .audit) : d.pieces.foldlM (add S) {} = .ok d := by
  obtain ⟨profile, format, out, verbose, path⟩ := d
  have hprofile : (profile.map fun p => Piece.option .profile p.name).toList.foldlM (add S) {} =
      .ok { profile } := by
    rcases profile with _ | p
    · rfl
    · exact foldlM_add_cons_eq_ok.2 ⟨_, .profile rfl (Profile.ofName?_name p), rfl⟩
  have hformat : (format.map fun f => Piece.option .format f.name).toList.foldlM (add S)
      { profile } = .ok { profile, format } := by
    rcases format with _ | f
    · rfl
    · exact foldlM_add_cons_eq_ok.2 ⟨_, .format rfl (Format.ofName?_name f), rfl⟩
  have hout : (out.map fun path => Piece.option .out path).toList.foldlM (add S)
      { profile, format } = .ok { profile, format, out } := by
    rcases out with _ | path
    · rfl
    · exact foldlM_add_cons_eq_ok.2 ⟨_, .out rfl fun h => hout (congrArg some h), rfl⟩
  have hverbose : (if verbose then [Piece.flag .verbose] else []).foldlM (add S)
      { profile, format, out } = .ok { profile, format, out, verbose } := by
    rcases verbose with _ | _
    · rfl
    · exact foldlM_add_cons_eq_ok.2 ⟨_, .verbose rfl, rfl⟩
  have hpath : (path.map Piece.operand).toList.foldlM (add S)
      { profile, format, out, verbose } = .ok { profile, format, out, verbose, path } := by
    rcases path with _ | path
    · rfl
    · have hS : S = .audit := hS.resolve_left nofun
      exact foldlM_add_cons_eq_ok.2 ⟨_, .operand hS rfl fun h => hpath (congrArg some h), rfl⟩
  simp only [pieces, List.foldlM_append, hprofile, bind, Except.bind, hformat, hout, hverbose,
    hpath]

/-- What a draft holds can be set for a verification, apart from the path. -/
theorem mem_pieces (h : p ∈ d.pieces) : p.IsVerifyOption ∨ d.path.map .operand = some p := by
  simp only [pieces, List.mem_append, Option.mem_toList, Option.map_eq_some_iff] at h
  rcases h with (((⟨_, -, rfl⟩ | ⟨_, -, rfl⟩) | ⟨_, -, rfl⟩) | h) | ⟨path, hpath, rfl⟩
  · exact .inl .option
  · exact .inl .option
  · exact .inl .option
  · rcases hv : d.verbose with _ | _ <;> simp [hv] at h
    exact .inl (h ▸ .verbose)
  · exact .inr (by rw [hpath, Option.map_some])

end Draft

namespace Piece

theorem IsVerifyOption.knows {S : Scope} {p : Piece} (h : p.IsVerifyOption) (hS : S ≠ .audit) :
    S.Knows p := by
  cases h with
  | @option o => cases S <;> cases o <;> simp [Scope.Knows, Scope.options] at hS ⊢
  | verbose => cases S <;> simp [Scope.Knows, Scope.flags] at hS ⊢

theorem Repeats.knows {S : Scope} {p q : Piece} (h : q.Repeats p) (hp : S.Knows p) : S.Knows q := by
  cases h <;> exact hp

theorem Repeats.isVerifyOption {p q : Piece} (h : q.Repeats p) (hp : p.IsVerifyOption) :
    q.IsVerifyOption := by
  cases h with
  | option => exact .option
  | flag => exact hp

/-- Whether a piece calls neither for help nor for the version. -/
def Ordinary (p : Piece) : Prop := p ≠ .flag .help ∧ p ≠ .flag .version

theorem IsVerifyOption.ordinary {p : Piece} (h : p.IsVerifyOption) : p.Ordinary := by
  cases h <;> exact ⟨nofun, nofun⟩

theorem Repeats.ordinary {p q : Piece} (h : q.Repeats p) (hp : p.Ordinary) : q.Ordinary := by
  cases h with
  | option => exact ⟨nofun, nofun⟩
  | flag => exact hp

end Piece

theorem Draft.ordinary_of_mem_pieces {d : Draft} {p : Piece} (h : p ∈ d.pieces) : p.Ordinary := by
  rcases mem_pieces h with h | h
  · exact h.ordinary
  · obtain ⟨path, -, rfl⟩ := Option.map_eq_some_iff.1 h
    exact ⟨nofun, nofun⟩

/-! ## Command lines -/

namespace Scope

variable {S : Scope} {d : Draft} {r : Request} {ws : List String}

/-- Whether a scope knows all pieces of a draft and makes a request of them. -/
structure Takes (S : Scope) (d : Draft) (r : Request) : Prop where
  knows : ∀ p ∈ d.pieces, S.Knows p
  fold : d.pieces.foldlM (Draft.add S) {} = .ok d
  request : d.request S = .ok r

theorem Takes.request_of_arranged (h : S.Takes d r) (hws : d.Arranged ws) :
    S.request ws = .ok r := by
  obtain ⟨ps, hperm, hws⟩ := hws
  have hpieces := pieces_of_spelled hws fun p hp => h.knows p (hperm.mem_iff.1 hp)
  rw [request_eq_ok, hpieces]
  exact ⟨d, Draft.foldlM_add_perm hperm.symm h.fold, h.request⟩

theorem Takes.request_of_repeated (h : S.Takes d r) (hws : d.Repeated ws) :
    S.request ws = .error .usageError := by
  obtain ⟨p, hp, q, hq, ps, hperm, hws⟩ := hws
  have hknows : ∀ u ∈ ps, S.Knows u := by
    intro u hu
    rcases List.mem_cons.1 (hperm.mem_iff.1 hu) with rfl | hu
    · exact hq.knows (h.knows p hp)
    · exact h.knows u hu
  have hordinary : ∀ u ∈ ps, u.Ordinary := by
    intro u hu
    rcases List.mem_cons.1 (hperm.mem_iff.1 hu) with rfl | hu
    · exact hq.ordinary (Draft.ordinary_of_mem_pieces hp)
    · exact Draft.ordinary_of_mem_pieces hu
  rw [Scope.request, pieces_of_spelled hws hknows]
  -- In another order the reading may stop at another piece, but it stops as a mistake.
  rcases hfold : ps.foldlM (Draft.add S) {} with s | d'
  · obtain rfl := Draft.foldlM_add_eq_error hordinary hfold
    rfl
  · exact absurd (Draft.foldlM_add_perm hperm hfold) (Draft.foldlM_add_of_repeats hp hq)

theorem split?_of_looksLikeOption {word : String} (h : LooksLikeOption word) (ws : List String) :
    split? (word :: ws) = some (.top, word :: ws) := by
  have hne : ∀ name : String, name.toList.head? ≠ some '-' → word ≠ name := by
    rintro _ hname rfl
    exact not_looksLikeOption hname h
  rw [split?, if_neg (hne "verify" (by decide)), if_neg (hne "audit" (by decide)),
    if_neg (hne "help" (by decide))]

/-- Words for options and flags begin with one that looks like an option. -/
theorem head_of_spelled {ps : List Piece} (h : Spelled ps ws) (hps : ∀ p ∈ ps, p.IsVerifyOption) :
    ps = [] ∧ ws = [] ∨ ∃ word words, ws = word :: words ∧ LooksLikeOption word := by
  cases h with
  | nil => exact .inl ⟨rfl, rfl⟩
  | @cons p _ _ _ hp _ =>
    have hdash : ∀ s : String, LooksLikeOption ("--" ++ s) := fun s => ⟨'-', s.toList, by simp⟩
    cases hp with
    | spaced => exact .inr ⟨_, _, rfl, hdash _⟩
    | attached =>
      refine .inr ⟨_, _, rfl, ?_⟩
      rw [String.append_assoc, String.append_assoc]
      exact hdash _
    | long => exact .inr ⟨_, _, rfl, hdash _⟩
    | short => exact .inr ⟨_, _, rfl, _, _, String.toList_ofList⟩
    | operand => cases hps _ (List.mem_cons_self ..)
  | separated => exact .inr ⟨_, _, rfl, '-', [], rfl⟩

end Scope

namespace Scope.Means

variable {S : Scope} {d : Draft} {r : Request} {ps : List Piece} {ws : List String}

theorem takes (h : S.Means d r) : S.Takes d r := by
  cases h with
  | verify hS hout =>
    refine ⟨fun p hp => ?_, Draft.foldlM_add_pieces hout nofun (.inl rfl), ?_⟩
    · exact ((Draft.mem_pieces hp).resolve_right nofun).knows hS
    · cases S with
      | audit => exact absurd rfl hS
      | _ => rfl
  | audit hpath hout =>
    refine ⟨fun p hp => ?_, Draft.foldlM_add_pieces hout ?_ (.inr rfl), rfl⟩
    · simp only [Draft.pieces, List.mem_append, Option.mem_toList, Option.map_eq_some_iff] at hp
      rcases hp with (((⟨_, h, -⟩ | ⟨_, -, rfl⟩) | ⟨_, -, rfl⟩) | h) | ⟨_, -, rfl⟩
      · cases h
      · simp [Knows, options]
      · simp [Knows, options]
      · cases h
      · trivial
    · exact fun h => hpath (Option.some.inj h)

theorem isVerifyOption_of_mem (h : S.Means d r) (hS : S ≠ .audit) {p : Piece} (hp : p ∈ d.pieces) :
    p.IsVerifyOption := by
  cases h with
  | verify => exact (Draft.mem_pieces hp).resolve_right nofun
  | audit => exact absurd rfl hS

/-- The words of a scope are told by the subcommand, or else by the look of the first of them. -/
theorem split?_of_spelled (hps : S ≠ .audit → ∀ p ∈ ps, p.IsVerifyOption) (hws : Spelled ps ws) :
    split? (S.subcommand ++ ws) = some (S, ws) := by
  cases S with
  | top =>
    rcases head_of_spelled hws (hps nofun) with ⟨-, rfl⟩ | ⟨word, words, rfl, hword⟩
    · rfl
    · exact split?_of_looksLikeOption hword words
  | verify => rfl
  | audit => rfl

theorem ofWords_of_arranged (h : S.Means d r) (hws : d.Arranged ws) :
    Request.ofWords (S.subcommand ++ ws) = .ok r := by
  rw [← h.takes.request_of_arranged hws]
  obtain ⟨ps, hperm, hws⟩ := hws
  have hps : S ≠ .audit → ∀ p ∈ ps, p.IsVerifyOption := fun hS p hp =>
    h.isVerifyOption_of_mem hS (hperm.mem_iff.1 hp)
  exact ofWords_of_split? (split?_of_spelled hps hws)

theorem ofWords_of_repeated (h : S.Means d r) (hws : d.Repeated ws) :
    Request.ofWords (S.subcommand ++ ws) = .error .usageError := by
  rw [← h.takes.request_of_repeated hws]
  obtain ⟨p, hp, q, hq, ps, hperm, hws⟩ := hws
  have hps : S ≠ .audit → ∀ p ∈ ps, p.IsVerifyOption := by
    intro hS u hu
    rcases List.mem_cons.1 (hperm.mem_iff.1 hu) with rfl | hu
    · exact hq.isVerifyOption (h.isVerifyOption_of_mem hS hp)
    · exact h.isVerifyOption_of_mem hS hu
  exact ofWords_of_split? (split?_of_spelled hps hws)

end Scope.Means

/-- Behind options there is no subcommand any more, only an operand too many. -/
theorem Request.ofWords_of_options_first {ps : List Piece} {us : List String} {word : String}
    (hne : ps ≠ []) (hps : ∀ p ∈ ps, p.IsVerifyOption) (hus : Spelled ps us)
    (hword : ¬LooksLikeOption word) (rest : List String) :
    Request.ofWords (us ++ word :: rest) = .error .usageError := by
  have hsplit : Scope.split? (us ++ word :: rest) = some (.top, us ++ word :: rest) := by
    rcases Scope.head_of_spelled hus hps with ⟨rfl, -⟩ | ⟨first, more, rfl, hfirst⟩
    · exact absurd rfl hne
    · exact Scope.split?_of_looksLikeOption hfirst _
  obtain ⟨qs, hqs⟩ := Scope.exists_pieces_append hus
    (fun p hp => (hps p hp).knows (S := .top) nofun) hword rest
  rw [Scope.ofWords_of_split? hsplit, Scope.request, hqs, List.foldlM_append]
  rcases hfold : ps.foldlM (Draft.add .top) {} with s | d
  · obtain rfl := Draft.foldlM_add_eq_error (fun p hp => (hps p hp).ordinary) hfold
    rfl
  · rfl

/-- A command line is read as what was meant, whatever the order and the spelling of what it is
made of. With an option given twice, or in front of the subcommand, it is a mistake. -/
theorem Request.ofWords_arranged :
    (∀ S d r ws, Scope.Means S d r → d.Arranged ws →
      Request.ofWords (S.subcommand ++ ws) = .ok r) ∧
    (∀ S d r ws, Scope.Means S d r → d.Repeated ws →
      Request.ofWords (S.subcommand ++ ws) = .error .usageError) ∧
    (∀ ps us sub rest, ps ≠ [] → (∀ p ∈ ps, p.IsVerifyOption) → Spelled ps us →
      sub ∈ Scope.verify.subcommand ++ Scope.audit.subcommand →
        Request.ofWords (us ++ sub :: rest) = .error .usageError) := by
  refine ⟨fun _ _ _ _ h hws => h.ofWords_of_arranged hws,
    fun _ _ _ _ h hws => h.ofWords_of_repeated hws, fun ps us sub rest hne hps hus hsub => ?_⟩
  refine ofWords_of_options_first hne hps hus (not_looksLikeOption ?_) rest
  simp only [Scope.subcommand, List.cons_append, List.nil_append, List.mem_cons,
    List.not_mem_nil, or_false] at hsub
  rcases hsub with rfl | rfl <;> decide

/-- An audit of a file that has the name of a subcommand. -/
theorem auditVerify_arranged :
    Scope.audit.Means { format := some .json, out := some "a=b", path := some "verify" }
      (.audit ⟨"verify", .json, some "a=b"⟩) ∧
    Request.ofWords ["audit", "--out=a=b", "--format", "json", "--", "verify"] =
      .ok (.audit ⟨"verify", .json, some "a=b"⟩) := by
  have hmeans : Scope.audit.Means { format := some .json, out := some "a=b", path := some "verify" }
      (.audit ⟨"verify", .json, some "a=b"⟩) := .audit (by decide) (by decide)
  have hspelled : Spelled
      [.option .out "a=b", .option .format "json", .operand "verify"]
      ["--out=a=b", "--format", "json", "--", "verify"] :=
    .cons .attached (.cons (.spaced (not_looksLikeOption (by decide)))
      (@Spelled.separated ["verify"]))
  exact ⟨hmeans, Request.ofWords_arranged.1 _ _ _ _ hmeans ⟨_, by decide +kernel, hspelled⟩⟩

end HostAbi
