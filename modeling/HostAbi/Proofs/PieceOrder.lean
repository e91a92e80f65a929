import HostAbi.Command.Spelling
import Mathlib.Data.List.Perm.Basic

/-!
# The order of a command line

Pieces that are accepted one after the other set different fields of the draft, so they are accepted
the other way round too, with the same draft (`Draft.Adds.swap`). A command line asks for the same
whatever order its pieces are in, and one that has gained a piece asks for the same and what the
piece says (`Request.ofWords_of_gained`).
-/

namespace HostAbi

namespace Draft

/-- A piece that is taken up sets a field that was not set. -/
inductive Adds (S : Scope) (d : Draft) : Piece → Draft → Prop where
  | profile {value : String} {p : Profile} : d.profile = none → Profile.ofName? value = some p →
      Adds S d (.option .profile value) { d with profile := some p }
  | format {value : String} {f : Format} : d.format = none → Format.ofName? value = some f →
      Adds S d (.option .format value) { d with format := some f }
  | out {path : String} : d.out = none → path ≠ "" →
      Adds S d (.option .out path) { d with out := some path }
  | verbose : d.verbose = false → Adds S d (.flag .verbose) { d with verbose := true }
  | operand {path : String} : S = .audit → d.path = none → path ≠ "" →
      Adds S d (.operand path) { d with path := some path }

variable {S : Scope} {d d' : Draft} {p q : Piece}

theorem bind_setOnce_eq_ok {α : Type} {old value : Option α} (f : Option α → Draft) :
    (do return f (← setOnce old value) : Except Stop Draft) = .ok d' ↔
      old = none ∧ ∃ a, value = some a ∧ f (some a) = d' := by
  cases old <;> cases value <;> simp [setOnce, bind, Except.bind, pure, Except.pure]

theorem nonempty?_eq_some {s s' : String} : nonempty? s = some s' ↔ s ≠ "" ∧ s = s' := by
  by_cases hs : s = "" <;> simp [nonempty?, hs]

theorem adds_of_add (h : add S d p = .ok d') : Adds S d p d' := by
  cases p with
  | option name value =>
    cases name with
    | profile =>
      obtain ⟨hold, p, hp, rfl⟩ := (bind_setOnce_eq_ok fun new => { d with profile := new }).1 h
      exact .profile hold hp
    | format =>
      obtain ⟨hold, f, hf, rfl⟩ := (bind_setOnce_eq_ok fun new => { d with format := new }).1 h
      exact .format hold hf
    | out =>
      obtain ⟨hold, path, hpath, rfl⟩ := (bind_setOnce_eq_ok fun new => { d with out := new }).1 h
      obtain ⟨hne, rfl⟩ := nonempty?_eq_some.1 hpath
      exact .out hold hne
  | flag f =>
    cases f with
    | verbose =>
      rcases hv : d.verbose with _ | _ <;> simp [add, hv] at h
      subst h
      exact .verbose hv
    | help => cases h
    | version => cases h
  | operand path =>
    by_cases hS : S = .audit
    · rw [add, if_pos hS] at h
      obtain ⟨hold, path', hpath, rfl⟩ := (bind_setOnce_eq_ok fun new => { d with path := new }).1 h
      obtain ⟨hne, rfl⟩ := nonempty?_eq_some.1 hpath
      exact .operand hS hold hne
    · rw [add, if_neg hS] at h
      cases h
  | invalid => cases h

theorem Adds.add (h : Adds S d p d') : add S d p = .ok d' := by
  cases h with
  | profile hold hp => simp [Draft.add, setOnce, hold, hp]
  | format hold hf => simp [Draft.add, setOnce, hold, hf]
  | out hold hne => simp [Draft.add, setOnce, nonempty?, hold, hne]
  | verbose hold => simp [Draft.add, hold]
  | operand hS hold hne => simp [Draft.add, setOnce, nonempty?, hS, hold, hne]

/-- Two pieces that are taken up one after the other set two fields. -/
theorem Adds.swap {d₁ d₂ : Draft} (h : Adds S d p d₁) (h' : Adds S d₁ q d₂) :
    ∃ e, Adds S d q e ∧ Adds S e p d₂ := by
  cases h with
  | profile hold hp =>
    cases h' with
    | profile hold' => cases hold'
    | _ =>
      refine ⟨_, by constructor <;> assumption, ?_⟩
      exact .profile hold hp
  | format hold hf =>
    cases h' with
    | format hold' => cases hold'
    | _ =>
      refine ⟨_, by constructor <;> assumption, ?_⟩
      exact .format hold hf
  | out hold hne =>
    cases h' with
    | out hold' => cases hold'
    | _ =>
      refine ⟨_, by constructor <;> assumption, ?_⟩
      exact .out hold hne
  | verbose hold =>
    cases h' with
    | verbose hold' => cases hold'
    | _ =>
      refine ⟨_, by constructor <;> assumption, ?_⟩
      exact .verbose hold
  | operand hS hold hne =>
    cases h' with
    | operand _ hold' => cases hold'
    | _ =>
      refine ⟨_, by constructor <;> assumption, ?_⟩
      exact .operand hS hold hne

theorem foldlM_add_cons_eq_ok {ps : List Piece} :
    (p :: ps).foldlM (add S) d = .ok d' ↔ ∃ e, Adds S d p e ∧ ps.foldlM (add S) e = .ok d' := by
  rw [List.foldlM_cons]
  constructor
  · intro h
    rcases hadd : add S d p with s | e <;> rw [hadd] at h
    · cases h
    · exact ⟨e, adds_of_add hadd, h⟩
  · rintro ⟨e, hadd, h⟩
    rw [hadd.add]
    exact h

/-- Pieces give the same draft in every order. -/
theorem foldlM_add_perm {ps qs : List Piece} (hperm : ps.Perm qs)
    (h : ps.foldlM (add S) d = .ok d') : qs.foldlM (add S) d = .ok d' := by
  induction hperm generalizing d with
  | nil => exact h
  | cons p _ ih =>
    obtain ⟨e, hadd, h⟩ := foldlM_add_cons_eq_ok.1 h
    exact foldlM_add_cons_eq_ok.2 ⟨e, hadd, ih h⟩
  | swap p q ps =>
    obtain ⟨e, hq, h⟩ := foldlM_add_cons_eq_ok.1 h
    obtain ⟨e', hp, h⟩ := foldlM_add_cons_eq_ok.1 h
    obtain ⟨e, hp, hq⟩ := hq.swap hp
    exact foldlM_add_cons_eq_ok.2 ⟨e, hp, foldlM_add_cons_eq_ok.2 ⟨e', hq, h⟩⟩
  | trans _ _ ih ih' => exact ih' (ih h)

end Draft

namespace Scope

/-- The scope of a command line and the words that belong to it. A call for help has neither. -/
def split? : List String → Option (Scope × List String)
  | [] => some (.top, [])
  | word :: words =>
    if word = "verify" then some (.verify, words)
    else if word = "audit" then some (.audit, words)
    else if word = "help" then none
    else some (.top, word :: words)

variable {S : Scope} {words ws : List String} {r : Request}

theorem ofWords_of_split? (h : split? words = some (S, ws)) :
    Request.ofWords words = S.request ws := by
  cases words with
  | nil =>
    cases h
    rfl
  | cons word words =>
    simp only [split?] at h
    simp only [Request.ofWords]
    split_ifs at h ⊢ <;> cases h <;> rfl

/-- A scope has no other flags than its own. -/
theorem mem_flags_of_mem_pieces {f : Flag} (h : .flag f ∈ S.pieces ws) : f ∈ S.flags := by
  fun_induction S.pieces ws with
  | case1 => cases h
  | case2 => simp at h
  | case4 _ _ letters _ ih =>
    rcases List.mem_append.1 h with h | h
    · obtain ⟨c, -, hc⟩ := List.mem_map.1 h
      rcases hfind : S.shortFlag? c with _ | f' <;> rw [hfind] at hc <;> cases hc
      exact List.mem_of_find?_eq_some hfind
    · exact ih h
  | case7 _ _ _ _ f' hfind ih =>
    rcases List.mem_cons.1 h with h | h
    · cases h
      exact List.mem_of_find?_eq_some hfind
    · exact ih h
  | case3 _ _ _ ih | case5 _ _ _ _ _ _ _ ih | case9 _ _ _ _ _ _ _ _ _ ih =>
    exact ih (by simpa using h)
  | case6 | case8 | case10 => simp at h

theorem request_eq_ok : S.request ws = .ok r ↔
    ∃ d, (S.pieces ws).foldlM (Draft.add S) {} = .ok d ∧ d.request S = .ok r := by
  unfold request
  rcases (S.pieces ws).foldlM (Draft.add S) {} with s | d <;> simp [bind, Except.bind]

end Scope

/-- Whether a command line is another one with one more piece, in any order of its pieces. -/
def Piece.Gained (p : Piece) (words words' : List String) : Prop :=
  ∃ S ws ws', Scope.split? words = some (S, ws) ∧ Scope.split? words' = some (S, ws') ∧
    (S.pieces ws').Perm (p :: S.pieces ws)

/-- What a request is made of is what one more piece adds to. -/
theorem Request.ofWords_of_gained {p : Piece} {words words' : List String} {r : Request}
    (hgain : p.Gained words words') (h : Request.ofWords words = .ok r) :
    ∃ S d, d.request S = .ok r ∧ ∀ d', Draft.Adds S d p d' →
      Request.ofWords words' = d'.request S := by
  obtain ⟨S, ws, ws', hws, hws', hperm⟩ := hgain
  rw [Scope.ofWords_of_split? hws] at h
  obtain ⟨d, hd, hr⟩ := Scope.request_eq_ok.1 h
  refine ⟨S, d, hr, fun d' hadd => ?_⟩
  have hall : (S.pieces ws ++ [p]).foldlM (Draft.add S) {} = .ok d' := by
    rw [List.foldlM_append, hd]
    exact Draft.foldlM_add_cons_eq_ok.2 ⟨d', hadd, rfl⟩
  have hperm : (S.pieces ws ++ [p]).Perm (S.pieces ws') :=
    (List.perm_append_singleton p (S.pieces ws)).trans hperm.symm
  have hall := Draft.foldlM_add_perm hperm hall
  rw [Scope.ofWords_of_split? hws', Scope.request, hall]
  rfl

end HostAbi
