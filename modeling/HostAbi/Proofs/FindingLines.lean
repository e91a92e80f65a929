import HostAbi.Proofs.Kept
import HostAbi.Proofs.Startable

/-!
# The lines of an audit

The text of an audit is the findings in their order, each followed by a line end. It has a line for
each finding if none of them holds a line end of its own, and more lines than findings otherwise
(`HasLines.of_unlines`). Two sorts of finding can: a file that starts with the wrong four bytes,
which are shown on lines of their own, and an import that does not link, whose names are as the
module spells them (`inspect_text_lines`).
-/

namespace HostAbi

/-! ## Lines -/

/-- Whether a text has no line end in it. -/
def OneLine (s : String) : Prop := '\n' ∉ s.toList

instance : DecidablePred OneLine := fun s => inferInstanceAs (Decidable ('\n' ∉ s.toList))

@[simp] theorem oneLine_append {a b : String} : OneLine (a ++ b) ↔ OneLine a ∧ OneLine b := by
  simp [OneLine, not_or]

/-- The lines that a text consists of, each with its end. -/
structure HasLines (text : String) (ls : List String) : Prop where
  text_eq : text = unlines ls
  oneLine : ∀ l ∈ ls, OneLine l

theorem toList_unlines (ls : List String) :
    (unlines ls).toList = ls.flatMap (·.toList ++ ['\n']) := by
  simp [unlines, String.toList_join, List.flatMap_map]

theorem unlines_append (ls ls' : List String) :
    unlines (ls ++ ls') = unlines ls ++ unlines ls' := by
  simp [← String.toList_inj, toList_unlines]

theorem unlines_eq_empty {ls : List String} : unlines ls = "" ↔ ls = [] := by
  rw [← String.toList_inj, toList_unlines]
  cases ls <;> simp

theorem hasLines_nil : HasLines "" [] := ⟨rfl, by simp⟩

namespace HasLines

variable {a b text : String} {ls ls' rs : List String}

theorem append (h : HasLines a ls) (h' : HasLines b ls') : HasLines (a ++ b) (ls ++ ls') where
  text_eq := by rw [unlines_append, h.text_eq, h'.text_eq]
  oneLine l hl := (List.mem_append.1 hl).elim (h.oneLine l) (h'.oneLine l)

/-- A text has one line for every line end. -/
theorem count_eq (h : HasLines text ls) : text.toList.count '\n' = ls.length := by
  obtain ⟨rfl, h⟩ := h
  rw [toList_unlines]
  induction ls with
  | nil => rfl
  | cons l ls ih =>
    have hl : l.toList.count '\n' = 0 := List.count_eq_zero_of_not_mem (h l List.mem_cons_self)
    have ih := ih fun m hm => h m (List.mem_cons_of_mem _ hm)
    simp [List.count_append, hl, ih]

theorem unique (h : HasLines text ls) (h' : HasLines text ls') : ls = ls' := by
  obtain ⟨rfl, h⟩ := h
  obtain ⟨heq, h'⟩ := h'
  rw [← String.toList_inj, toList_unlines, toList_unlines] at heq
  induction ls generalizing ls' with
  | nil =>
    cases ls' with
    | nil => rfl
    | cons l' ls' => simp at heq
  | cons l ls ih =>
    cases ls' with
    | nil => simp at heq
    | cons l' ls' =>
      simp only [List.flatMap_cons, List.append_assoc, List.singleton_append] at heq
      -- the first line ends at the first line end, on both sides
      have hlen : l.toList.length = l'.toList.length := by
        simpa [List.idxOf_append_of_notMem (h l List.mem_cons_self),
          List.idxOf_append_of_notMem (h' l' List.mem_cons_self)]
          using congrArg (List.idxOf '\n') heq
      obtain ⟨hl, hls⟩ := List.append_inj heq hlen
      rw [String.toList_inj.1 hl, ih (fun m hm => h m (List.mem_cons_of_mem _ hm))
        (List.cons.inj hls).2 fun m hm => h' m (List.mem_cons_of_mem _ hm)]

end HasLines

/-- Anything with a line end behind it has lines. -/
theorem exists_hasLines_push : ∀ cs : List Char, ∃ ls, HasLines (.ofList (cs ++ ['\n'])) ls
  | [] => ⟨[""], rfl, by decide⟩
  | c :: cs => by
    obtain ⟨ls, hls⟩ := exists_hasLines_push cs
    have htext := congrArg String.toList hls.text_eq
    rw [String.toList_ofList] at htext
    by_cases hc : c = '\n'
    · refine ⟨"" :: ls, ?_, fun l hl => ?_⟩
      · rw [← String.toList_inj, toList_unlines, List.flatMap_cons, ← toList_unlines, ← htext, hc]
        simp
      · rcases List.mem_cons.1 hl with rfl | hl
        · decide
        · exact hls.oneLine l hl
    · have hne : ls ≠ [] := by
        rintro rfl
        simp [toList_unlines] at htext
      obtain ⟨l, ls, rfl⟩ := List.exists_cons_of_ne_nil hne
      refine ⟨.ofList (c :: l.toList) :: ls, ?_, fun m hm => ?_⟩
      · rw [← String.toList_inj, String.toList_ofList, List.cons_append, htext]
        simp [toList_unlines]
      · rcases List.mem_cons.1 hm with rfl | hm
        · have hl := hls.oneLine l List.mem_cons_self
          simpa [OneLine, Ne.symm hc] using hl
        · exact hls.oneLine m (List.mem_cons_of_mem _ hm)

theorem exists_hasLines_unlines : ∀ rs : List String, ∃ ls, HasLines (unlines rs) ls
  | [] => ⟨[], hasLines_nil⟩
  | r :: rs => by
    obtain ⟨ls, hls⟩ := exists_hasLines_push r.toList
    obtain ⟨ls', hls'⟩ := exists_hasLines_unlines rs
    have htext : unlines (r :: rs) = .ofList (r.toList ++ ['\n']) ++ unlines rs := by
      simp [← String.toList_inj, toList_unlines]
    exact ⟨ls ++ ls', htext ▸ hls.append hls'⟩

theorem length_le_count_unlines (rs : List String) :
    rs.length ≤ (unlines rs).toList.count '\n' ∧
      ((unlines rs).toList.count '\n' = rs.length → ∀ r ∈ rs, OneLine r) := by
  rw [toList_unlines]
  induction rs with
  | nil => simp
  | cons r rs ih =>
    obtain ⟨hle, hone⟩ := ih
    simp only [List.flatMap_cons, List.count_append, List.count_singleton_self, List.length_cons]
    refine ⟨by omega, fun h s hs => ?_⟩
    rcases List.mem_cons.1 hs with rfl | hs
    · exact List.count_eq_zero.1 (by omega)
    · exact hone (by omega) s hs

/-- What is written in a row, each with a line end behind it, makes at least as many lines. They
are as many, and the same, exactly if each was of one line. -/
theorem HasLines.of_unlines {ls rs : List String} (h : HasLines (unlines rs) ls) :
    rs.length ≤ ls.length ∧ (ls.length = rs.length ↔ ls = rs) ∧
      (ls = rs ↔ ∀ r ∈ rs, OneLine r) := by
  obtain ⟨hle, hone⟩ := length_le_count_unlines rs
  rw [h.count_eq] at hle hone
  have hsame : (∀ r ∈ rs, OneLine r) → ls = rs := fun hrs => h.unique ⟨rfl, hrs⟩
  exact ⟨hle, ⟨fun hlen => hsame (hone hlen), congrArg List.length⟩, fun heq => heq ▸ h.oneLine,
    hsame⟩

/-! ## The wording of faults -/

theorem oneLine_hex (n : Nat) : OneLine (Hex.ofNat n) := by
  unfold OneLine Hex.ofNat
  rw [String.toList_ofList]
  induction n using Nat.strongRecOn with
  | _ n ih =>
    rcases Nat.lt_or_ge n 16 with hlt | hge
    · simp [Nat.toDigits_of_lt_base hlt]
    · have ih := ih (n / 16) (by omega)
      simp [Nat.toDigits_of_base_le (by decide) hge, ih]

theorem oneLine_paddedHex (n : Nat) : OneLine (Cause.paddedHex n) := by
  have hblanks (k : Nat) : OneLine (.ofList (List.replicate k ' ')) := by simp [OneLine]
  have hmark : OneLine "0x" := by decide
  simp only [Cause.paddedHex, oneLine_append]
  exact ⟨hblanks _, hmark, oneLine_hex n⟩

theorem not_oneLine_byteLines (bs : List UInt8) : ¬OneLine (Cause.byteLines bs) := by
  simp [Cause.byteLines, OneLine]

theorem Cause.oneLine_message {c : Cause} :
    OneLine c.message ↔ ∀ found, c ≠ .badMagic found := by
  cases c with
  | badMagic found =>
    exact iff_of_false (fun h => not_oneLine_byteLines found (oneLine_append.1 h).2)
      fun h => h found rfl
  | integerTooLong i | integerTooLarge i =>
    cases i <;> exact iff_of_true (by decide +kernel) nofun
  | badType form => cases form <;> exact iff_of_true (by decide +kernel) nofun
  | unknownVersion v =>
    exact iff_of_true (oneLine_append.2 ⟨by decide, oneLine_paddedHex v⟩) nofun
  | badExternalKind b =>
    have hfront : OneLine ("invalid leading byte (0x" ++ Hex.ofNat b.toNat) :=
      oneLine_append.2 ⟨by decide, oneLine_hex b.toNat⟩
    exact iff_of_true (oneLine_append.2 ⟨hfront, by decide⟩) nofun
  -- a wording without a parameter
  | _ => exact iff_of_true (by decide +kernel) nofun

theorem Fault.oneLine_message {f : Fault} :
    OneLine f.message ↔ ∀ found, f.cause ≠ .badMagic found := by
  have hmark : OneLine " (at offset 0x" := by decide
  have hend : OneLine ")" := by decide
  simp only [message, oneLine_append, hmark, hend, oneLine_hex, and_true, Cause.oneLine_message]

/-! ## Findings of one line -/

theorem Verdict.oneLine_lines {v : Verdict} : (∀ l ∈ v.analysis.lines, OneLine l) ↔
    ∀ found offset, v ≠ .faulty ⟨.badMagic found, offset⟩ := by
  cases v with
  | ok => exact iff_of_true (by decide) nofun
  | component => exact iff_of_true (by decide +kernel) nofun
  | faulty f =>
    obtain ⟨cause, offset⟩ := f
    have hstatus : OneLine ("parse_error" ++ ": ") := by decide
    have hlines : (Verdict.faulty ⟨cause, offset⟩).analysis.lines =
        ["parse_error" ++ ": " ++ (Fault.mk cause offset).message] := rfl
    rw [hlines, List.forall_mem_singleton, oneLine_append, and_iff_right hstatus,
      Fault.oneLine_message]
    simp

namespace Import

theorem oneLine_label {i : Import} (hkind : ∃ k : ExternalKind, i.kind = k.name) :
    OneLine i.label ↔ OneLine i.fromModule ∧ OneLine i.name := by
  obtain ⟨k, hk⟩ := hkind
  have hname : OneLine i.kind := by rw [hk]; cases k <;> decide
  have hdot : OneLine "." := by decide
  have hopen : OneLine " (" := by decide
  have hclose : OneLine ")" := by decide
  simp only [label, oneLine_append, hname, hdot, hopen, hclose, and_true]

end Import

theorem Host.oneLine_stubbed : ∀ name ∈ Host.stubbed, OneLine name := by decide +kernel

/-- The names of what does not link are the only ones in the findings that a module is free to
choose. -/
theorem Interface.oneLine_lines {I : Interface} (hI : I.Kinded) :
    (∀ l ∈ I.findings.lines, OneLine l) ↔
      ∀ i ∈ I.findings.unsupported, OneLine i.fromModule ∧ OneLine i.name := by
  have hkind : ∀ i ∈ I.findings.unsupported, ∃ k : ExternalKind, i.kind = k.name :=
    fun i hi => hI.1 i (List.mem_of_mem_filter hi)
  have hstubbed : ∀ i ∈ I.findings.stubbed, OneLine i.label := by
    intro i hi
    obtain ⟨hmem, hlink⟩ := List.mem_filter.1 hi
    obtain ⟨-, hw, hname⟩ := Import.linkage_eq_stubbed.1 (of_decide_eq_true hlink)
    refine (Import.oneLine_label (hI.1 i hmem)).2 ⟨?_, Host.oneLine_stubbed _ hname⟩
    rw [hw]
    decide
  have hmissing : ∀ name ∈ I.findings.missing, OneLine name := by
    intro name hname
    obtain ⟨e, he, rfl⟩ := List.mem_map.1 hname
    have hall : ∀ e ∈ requiredExports, OneLine e.name := by decide
    exact hall e (List.mem_of_mem_filter he)
  have hu : OneLine "unsupported import: " := by decide
  have hs : OneLine "stubbed import: " := by decide
  have hm : OneLine "missing export: " := by decide
  simp only [Findings.lines, List.forall_mem_append, List.forall_mem_map, oneLine_append, hu, hs,
    hm, true_and]
  refine ⟨fun h i hi => (Import.oneLine_label (hkind i hi)).1 (h.1.1 i hi), fun h => ?_⟩
  exact ⟨⟨fun i hi => (Import.oneLine_label (hkind i hi)).2 (h i hi), hstubbed⟩, hmissing⟩

theorem auditFile_oneLine (path : String) (bytes : List UInt8) (tool : Tool) :
    (∀ l ∈ (auditFile path bytes tool).lines, OneLine l) ↔
      (∀ found offset, (readModule bytes).verdict ≠ .faulty ⟨.badMagic found, offset⟩) ∧
        ∀ i ∈ (readModule bytes).interface.findings.unsupported,
          OneLine i.fromModule ∧ OneLine i.name := by
  rw [← Verdict.oneLine_lines, ← Interface.oneLine_lines (readModule_kinded bytes)]
  exact List.forall_mem_append

/-- How many findings the text of an audit has to show. -/
def AuditReport.findingCount (r : AuditReport) : Nat :=
  (if r.analysis.status = "ok" then 0 else r.analysis.warnings.length)
    + r.findings.unsupported.length + r.findings.stubbed.length + r.findings.missing.length

theorem AuditReport.length_lines (r : AuditReport) : r.lines.length = r.findingCount := by
  have hok : r.analysis.isOk = decide (r.analysis.status = "ok") := rfl
  by_cases hs : r.analysis.status = "ok" <;>
    simp [lines, Analysis.lines, Findings.lines, findingCount, hok, hs, Nat.add_assoc]

/-- The text of an audit is its findings in their order, each with a line end behind it. It has at
least as many lines as there are findings, and these lines are the findings exactly if the first
four bytes are not shown and what does not link has names of one line. -/
theorem inspect_text_lines {t : FileTree} {path : String} {bytes : List UInt8} (tool : Tool)
    (h : t.read path = .ok bytes) : ∃ r ls, inspect path tool t = .ok r ∧
      r.text = unlines r.lines ∧ r.lines.length = r.findingCount ∧ HasLines r.text ls ∧
      r.findingCount ≤ ls.length ∧ (ls.length = r.findingCount ↔ ls = r.lines) ∧
      (ls = r.lines ↔
        (∀ found offset, (readModule bytes).verdict ≠ .faulty ⟨.badMagic found, offset⟩) ∧
          ∀ i ∈ r.findings.unsupported, OneLine i.fromModule ∧ OneLine i.name) := by
  obtain ⟨ls, hls⟩ := exists_hasLines_unlines (auditFile path bytes tool).lines
  obtain ⟨hle, hlen, hsame⟩ := hls.of_unlines
  rw [AuditReport.length_lines] at hle hlen
  exact ⟨_, ls, inspect_of_read tool h, rfl, AuditReport.length_lines _, hls, hle, hlen,
    hsame.trans (auditFile_oneLine path bytes tool)⟩

/-- A module that could be started but for one import, with a name of two lines. -/
def twoLineModule : List UInt8 :=
  [0x00, 0x61, 0x73, 0x6d, 0x01, 0x00, 0x00, 0x00, 0x02, 0x1b, 0x01, 0x03, 0x65, 0x6e, 0x76, 0x13,
    0x61, 0x0a, 0x6d, 0x69, 0x73, 0x73, 0x69, 0x6e, 0x67, 0x20, 0x65, 0x78, 0x70, 0x6f, 0x72, 0x74,
    0x3a, 0x20, 0x62, 0x00, 0x00, 0x07, 0x18, 0x02, 0x06, 0x6d, 0x65, 0x6d, 0x6f, 0x72, 0x79, 0x02,
    0x00, 0x0b, 0x5f, 0x69, 0x6e, 0x69, 0x74, 0x69, 0x61, 0x6c, 0x69, 0x7a, 0x65, 0x00, 0x00]

theorem readModule_twoLineModule : readModule twoLineModule =
    ⟨⟨[⟨"env", "a\nmissing export: b", "func"⟩], [⟨"_initialize", "func"⟩, ⟨"memory", "memory"⟩]⟩,
      .ok⟩ := by
  have hhead : Reader.header ⟨twoLineModule, 0⟩ = .ok (.coreModule, ⟨twoLineModule.drop 8, 8⟩) :=
    rfl
  have hfound : readSections ⟨twoLineModule.drop 8, 8⟩ {} =
      (⟨[⟨"env", "a\nmissing export: b", "func"⟩],
        [⟨"_initialize", "func"⟩, ⟨"memory", "memory"⟩]⟩, none) := by
    decide +kernel
  rw [readModule_of_coreModule hhead, hfound]
  simp only [Interface.sorted, List.mergeSort_singleton, Option.elim_none]
  rw [List.mergeSort_of_pairwise (by decide +kernel)]

theorem twoLineModule_text :
    (FileTree.ofFiles [] [("m", twoLineModule)]).read "m" = .ok twoLineModule ∧
      ∃ r ls, inspect "m" commandTool (.ofFiles [] [("m", twoLineModule)]) = .ok r ∧
        HasLines r.text ls ∧ r.findingCount < ls.length := by
  have hread := read_ofFiles_singleton twoLineModule
  obtain ⟨r, ls, hr, -, -, hls, hle, hlen, hsame⟩ := inspect_text_lines commandTool hread
  obtain rfl := Except.ok.inj (hr.symm.trans (inspect_of_read commandTool hread))
  refine ⟨hread, _, ls, hr, hls, Nat.lt_of_le_of_ne hle fun heq => ?_⟩
  -- the name of the one import is not of one line
  have hname := (hsame.1 (hlen.1 heq.symm)).2 ⟨"env", "a\nmissing export: b", "func"⟩
  simp only [auditFile, Interface.audit, readModule_twoLineModule] at hname
  exact absurd (hname (by decide +kernel)).2 (by decide)

/-- There is a module whose audit has one finding and two lines. -/
theorem finding_of_two_lines :
    ¬∀ (t : FileTree) (path : String) (bytes : List UInt8) (tool : Tool),
      t.read path = .ok bytes → ∃ r, inspect path tool t = .ok r ∧
        ∃ ls, HasLines r.text ls ∧ ls.length = r.findingCount := by
  intro h
  have hread := read_ofFiles_singleton twoLineModule
  obtain ⟨r, hr, ls, hls, hlen⟩ := h _ "m" _ commandTool hread
  obtain rfl := Except.ok.inj (hr.symm.trans (inspect_of_read commandTool hread))
  have hcount : (auditFile "m" twoLineModule commandTool).findingCount = 1 := by
    simp only [AuditReport.findingCount, auditFile, Interface.audit, readModule_twoLineModule]
    decide +kernel
  have hlines : HasLines (auditFile "m" twoLineModule commandTool).text
      ["unsupported import: env.a", "missing export: b (func)"] := by
    refine ⟨?_, by decide⟩
    simp only [AuditReport.text, AuditReport.lines, auditFile, Interface.audit,
      readModule_twoLineModule]
    decide +kernel
  rw [hcount, hls.unique hlines] at hlen
  cases hlen

end HostAbi
