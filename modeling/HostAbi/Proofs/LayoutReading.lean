import HostAbi.Proofs.Footprint

/-!
# Reading a layout from outside

An exported function of a layout and a check that runs on it come to one of its numbers by ways of
their own: the one through a conversion to a signed word and back, the other through a fact
somewhere in a list. They give the same number, on every layout and for every list
(`verify_layout_export`).
-/

namespace HostAbi

namespace LayoutExport

/-- The number of a layout that an exported function is to give. -/
def word : LayoutExport → Layout → UInt64
  | .timespecPointerSize, L => L.timespecPtrSize
  | .timespecSecondsOffset, L => L.timespecSecOffset
  | .timespecNanosecondsOffset, L => L.timespecNsecOffset
  | .statSize, L => L.statSize

theorem answer_query (x : LayoutExport) (L : Layout) : L.answer x.query = (x.word L).toInt64 := by
  cases x <;> rfl

/-- Nothing is lost between a layout and what is read of it, whatever its numbers are. -/
theorem value_eq_word (x : LayoutExport) (L : Layout) : x.value L = x.word L := by
  rw [value, answer_query, UInt64.toUInt64_toInt64]

end LayoutExport

/-- A word below the sign bit is the same number as a signed word. -/
theorem toInt_toInt64 {w : UInt64} (h : w.toNat < 2 ^ 63) : w.toInt64.toInt = w.toNat := by
  rw [← Int64.toInt_ofNat_of_lt h, ← UInt64.toInt64_ofNat', UInt64.ofNat_toNat]

namespace LayoutExport

variable {x : LayoutExport} {L : Layout}

theorem toInt_answer (h : (x.word L).toNat < 2 ^ 63) :
    (L.answer x.query).toInt = (x.word L).toNat := by
  rw [answer_query, toInt_toInt64 h]

/-- On a target with shorter words an answer is cut to the bits that there are. Nothing is lost if
the number of the layout has room in them. -/
theorem toInt_answer_emod (h : (x.word L).toNat < 2 ^ 63) {bits : Nat}
    (hbits : (x.word L).toNat < 2 ^ bits) :
    (L.answer x.query).toInt % 2 ^ bits = (x.word L).toNat := by
  rw [toInt_answer h]
  exact Int.emod_eq_of_lt (Int.natCast_nonneg _) (by exact_mod_cast hbits)

end LayoutExport

/-- An exported function gives the number of the layout that it is named for, by way of a signed
word that holds the same number. Every evaluation of a fact on its query gives it too, whatever the
fact pins and wherever it stands, and if a check fails at such a fact, so does the mismatch. -/
theorem verify_layout_export (x : LayoutExport) {L : Layout} (hword : (x.word L).toNat < 2 ^ 63)
    (facts : List Fact) :
    (L.answer x.query).toInt = (x.word L).toNat ∧ x.value L = x.word L ∧
    (∀ bits, (x.word L).toNat < 2 ^ bits →
      (L.answer x.query).toInt % 2 ^ bits = (x.word L).toNat) ∧
    (∀ e ∈ (verify facts L.platform).1.evaluated, e.fact.source = x.query →
      e.actual.toInt = (x.value L).toNat) ∧
    ∀ f m, (verify facts L.platform).1.FailsAt f m → f.source = x.query →
      m.actual.toInt = (x.value L).toNat := by
  have hL : L.platform.Steady L.answer := fun _ _ => rfl
  have hanswer : (L.answer x.query).toInt = (x.word L).toNat := x.toInt_answer hword
  have hvalue : x.value L = x.word L := x.value_eq_word L
  refine ⟨hanswer, hvalue, fun bits => x.toInt_answer_emod hword, fun e he hsource => ?_,
    fun f m hfails hsource => ?_⟩
  · rw [actual_of_mem_evaluated hL he, hsource, hanswer, hvalue]
  · rw [mismatch_of_failsAt hL hfails, hvalue, ← hanswer, ← hsource]
    rfl

/-- A layout with a size that is the largest number of a signed word. -/
def largestStat : Layout := { Layout.linux64 with statSize := 0x7fffffffffffffff }

/-- A pinned fact about an offset that is read from outside too. -/
def secondsFact : Fact := ⟨"offset of timespec tv_sec", 0, .offsetOfTimespecSec, .extended⟩

theorem largestStat_read : (LayoutExport.statSize.word largestStat).toNat < 2 ^ 63 ∧
    (verify [secondsFact, statFact] largestStat.platform).1.FailsAt statFact
      ⟨"size of struct stat", 144, 0x7fffffffffffffff⟩ ∧
    (0x7fffffffffffffff : Int64).toInt = (LayoutExport.statSize.value largestStat).toNat := by
  have hword : (LayoutExport.statSize.word largestStat).toNat < 2 ^ 63 := by decide
  have hL : largestStat.platform.Steady largestStat.answer := fun _ _ => rfl
  have hbefore : ∀ f ∈ [secondsFact], (f.evaluate largestStat.answer).passed := by decide
  have hfails : (verify [secondsFact, statFact] largestStat.platform).1.FailsAt statFact
      ⟨"size of struct stat", 144, 0x7fffffffffffffff⟩ := by
    have hrun : (verify ([secondsFact] ++ [statFact]) largestStat.platform).1 =
        ⟨.failed ⟨"size of struct stat", 144, 0x7fffffffffffffff⟩,
          ([secondsFact] ++ [statFact]).map (·.evaluate largestStat.answer)⟩ :=
      verify_of_failing hL hbefore (by decide) []
    rw [← List.singleton_append, hrun]
    exact Verification.failsAt_failed_iff.2 ⟨rfl, rfl⟩
  obtain ⟨-, -, -, -, hmismatch⟩ := verify_layout_export .statSize hword [secondsFact, statFact]
  exact ⟨hword, hfails, hmismatch statFact _ hfails rfl⟩

end HostAbi
