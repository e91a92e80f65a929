import HostAbi.Binary.Reads.Type

/-!
# The forms of import and export entries

A name has a form for each form of its length, and a kind has its code. Of a description only its
form is read, so entries that differ there alone are the same import.
-/

namespace HostAbi.Reader

theorem reads_name : name.Reads Grammar.Name := by
  unfold name
  refine (reads_u32.bind fun n => .position fun start =>
    .ite (maxNameLength < n) (reads_fail _ _) ((reads_take n).bind fun bs =>
      (?_ : Reads _ fun s bs' => Utf8.decode? bs = some s ∧ bs' = []))).congr fun s bs => ?_
  · cases h : Utf8.decode? bs with
    | none => exact (reads_fail _ _).congr fun _ _ => by simp
    | some s => exact (reads_pure s).congr fun _ _ => by simp [eq_comm]
  · constructor
    · rintro ⟨n, bs₁, _, h, h', rfl⟩
      split at h'
      · exact h'.elim
      · obtain ⟨bs, _, _, ⟨rfl, rfl⟩, ⟨hs, rfl⟩, rfl⟩ := h'
        obtain rfl := Utf8.decode?_eq_some_iff.1 hs
        exact ⟨bs₁, h, by omega, by simp⟩
    · rintro ⟨bs₁, h, hle, rfl⟩
      refine ⟨_, bs₁, _, h, ?_, rfl⟩
      rw [if_neg (by omega)]
      exact ⟨_, _, [], ⟨rfl, rfl⟩, ⟨Utf8.decode?_encode s, rfl⟩, by simp⟩

theorem reads_externalKind : externalKind.Reads fun k bs => bs = [k.code] := by
  unfold externalKind
  refine (Reads.position fun start => reads_byte.bind fun b =>
    (?_ : Reads _ fun k bs => ExternalKind.ofCode? b = some k ∧ bs = [])).congr fun k bs => ?_
  · cases h : ExternalKind.ofCode? b with
    | none => exact (reads_fail _ _).congr fun _ _ => by simp
    | some s => exact (reads_pure s).congr fun _ _ => by simp [eq_comm]
  · constructor
    · rintro ⟨b, _, _, rfl, ⟨h, rfl⟩, rfl⟩
      simp [ExternalKind.code_of_ofCode? h]
    · rintro rfl
      exact ⟨_, _, [], rfl, ⟨ExternalKind.ofCode?_code k, rfl⟩, by simp⟩

theorem reads_byteBelow (bound : UInt8) (cause : Cause) :
    (byteBelow bound cause).Reads fun b bs => b < bound ∧ bs = [b] := by
  unfold byteBelow
  refine (Reads.position fun start => reads_byte.bind fun b =>
    .ite (b < bound) (reads_pure b) (reads_fail _ _)).congr fun b bs => ?_
  constructor
  · rintro ⟨b, _, _, rfl, h, rfl⟩
    split at h
    · obtain ⟨rfl, rfl⟩ := h
      exact ⟨‹_›, rfl⟩
    · exact h.elim
  · rintro ⟨h, rfl⟩
    exact ⟨b, [b], [], rfl, by simp [h], rfl⟩

theorem reads_size (flags : UInt8) : (size flags).Reads fun n bs =>
    if flags &&& 4 = 0 then Grammar.U32 n bs else Grammar.U64 n bs :=
  reads_u32.ite _ reads_u64

theorem reads_limits (flags : UInt8) :
    (limits flags).Reads fun _ bs => Grammar.Limits flags bs := by
  unfold limits
  refine ((reads_size flags).bind fun _ => .ite (flags &&& 1 = 0) (reads_pure ())
    (reads_size flags).drop).congr fun _ bs => ?_
  unfold Grammar.Limits
  constructor
  · rintro ⟨n, bs₁, bs₂, h, h', rfl⟩
    split at h'
    · obtain ⟨-, rfl⟩ := h'
      rw [if_pos ‹_›, List.append_nil]
      exact ⟨n, h⟩
    · rw [if_neg ‹_›]
      exact ⟨bs₁, bs₂, ⟨n, h⟩, h', rfl⟩
  · intro h
    split at h
    · obtain ⟨n, h⟩ := h
      exact ⟨n, bs, [], h, by simp [*], by simp⟩
    · obtain ⟨bs₁, bs₂, ⟨n, h⟩, h', rfl⟩ := h
      exact ⟨n, bs₁, bs₂, h, by rwa [if_neg ‹_›], rfl⟩

theorem reads_description : ∀ k, (description k).Reads fun _ bs => Grammar.Description k bs
  | .func => by
    refine reads_u32.drop.congr fun _ bs => ⟨fun ⟨_, h⟩ => .func h, ?_⟩
    rintro ⟨h⟩
    exact ⟨_, h⟩
  | .table => by
    refine (reads_refType.bind fun _ => (reads_byteBelow 8 _).bind reads_limits).congr
      fun _ bs => ⟨?_, ?_⟩
    · rintro ⟨_, type, _, h, ⟨flags, _, limits, ⟨hf, rfl⟩, hl, rfl⟩, rfl⟩
      exact .table h hf hl
    · rintro (_ | ⟨h, hf, hl⟩)
      exact ⟨(), _, _, h, ⟨_, [_], _, ⟨hf, rfl⟩, hl, rfl⟩, rfl⟩
  | .memory => by
    refine ((reads_byteBelow 16 _).bind fun flags => (reads_limits flags).bind fun _ =>
      .ite (flags &&& 8 = 0) (reads_pure ()) reads_u32.drop).congr fun _ bs => ⟨?_, ?_⟩
    · rintro ⟨flags, _, _, ⟨hf, rfl⟩, ⟨_, limits, _, hl, h, rfl⟩, rfl⟩
      split at h
      · obtain ⟨-, rfl⟩ := h
        simpa using .memory hf ‹_› hl
      · obtain ⟨n, h⟩ := h
        simpa using Grammar.Description.pagedMemory hf ‹_› hl h
    · rintro (_ | _ | ⟨hf, hp, hl⟩ | ⟨hf, hp, hl, h⟩)
      · exact ⟨_, [_], _, ⟨hf, rfl⟩, ⟨(), _, [], hl, by simp [hp], by simp⟩, rfl⟩
      · exact ⟨_, [_], _, ⟨hf, rfl⟩, ⟨(), _, _, hl, by rw [if_neg hp]; exact ⟨_, h⟩, rfl⟩, rfl⟩
  | .global => by
    refine (reads_valueType.bind fun _ => (reads_byteBelow 4 _).drop).congr fun _ bs => ⟨?_, ?_⟩
    · rintro ⟨_, type, _, h, ⟨flags, hf, rfl⟩, rfl⟩
      exact .global h hf
    · rintro (_ | _ | _ | _ | ⟨h, hf⟩)
      exact ⟨(), _, _, h, ⟨_, hf, rfl⟩, rfl⟩
  | .tag => by
    refine ((reads_byteBelow 1 _).bind fun _ => reads_u32.drop).congr fun _ bs => ⟨?_, ?_⟩
    · rintro ⟨b, _, _, ⟨hb, rfl⟩, ⟨n, h⟩, rfl⟩
      obtain rfl : b = 0 := by
        have := UInt8.lt_iff_toNat_lt.1 hb
        exact UInt8.toNat_inj.1 (by simp at this ⊢; exact this)
      exact .tag h
    · rintro (_ | _ | _ | _ | _ | ⟨h⟩)
      exact ⟨0, [0], _, ⟨by decide, rfl⟩, ⟨_, h⟩, rfl⟩

theorem reads_importEntry : importEntry.Reads Grammar.ImportEntry := by
  unfold importEntry
  refine (reads_name.bind fun m => reads_name.bind fun n => reads_externalKind.bind fun k =>
    (reads_description k).bind fun _ => reads_pure (Import.mk m n k.name)).congr
      fun i bs => ⟨?_, ?_⟩
  · rintro ⟨m, bs₁, _, hm, ⟨n, bs₂, _, hn, h, rfl⟩, rfl⟩
    obtain ⟨k, _, _, rfl, ⟨_, bs₃, _, hd, ⟨rfl, rfl⟩, rfl⟩, rfl⟩ := h
    simpa using Grammar.ImportEntry.mk hm hn hd
  · rintro ⟨hm, hn, hd⟩
    exact ⟨_, _, _, hm, ⟨_, _, _, hn, ⟨_, _, _, rfl, ⟨(), _, [], hd, ⟨rfl, rfl⟩, rfl⟩, rfl⟩, rfl⟩,
      by simp⟩

theorem reads_exportEntry : exportEntry.Reads Grammar.ExportEntry := by
  unfold exportEntry
  refine (reads_name.bind fun n => reads_externalKind.bind fun k =>
    reads_u32.bind fun _ => reads_pure (Export.mk n k.name)).congr fun i bs => ⟨?_, ?_⟩
  · rintro ⟨n, bs₁, _, hn, ⟨k, _, _, rfl, ⟨_, bs₃, _, hd, ⟨rfl, rfl⟩, rfl⟩, rfl⟩, rfl⟩
    simpa using Grammar.ExportEntry.mk hn hd
  · rintro ⟨hn, hd⟩
    exact ⟨_, _, _, hn, ⟨_, _, _, rfl, ⟨_, _, [], hd, ⟨rfl, rfl⟩, rfl⟩, rfl⟩, by simp⟩

end HostAbi.Reader
