/-!
# Text as bytes

The UTF-8 bytes of a text, and the text that bytes spell. Bytes spell a text exactly if they are
its UTF-8 form (`decode?_eq_some_iff`). Texts are ordered by these bytes.
-/

namespace HostAbi.Utf8

/-- The bytes of a string. -/
def encode (s : String) : List UInt8 := s.toByteArray.data.toList

/-- The string that bytes spell, if there is one. -/
def decode? (bs : List UInt8) : Option String := String.fromUTF8? bs.toByteArray

theorem toByteArray_encode (s : String) : (encode s).toByteArray = s.toByteArray := by
  apply ByteArray.ext
  simp [encode]

theorem encode_injective {s t : String} (h : encode s = encode t) : s = t := by
  rw [← String.toByteArray_inj, ← toByteArray_encode s, h, toByteArray_encode]

theorem decode?_encode (s : String) : decode? (encode s) = some s := by
  simp only [decode?, toByteArray_encode, String.fromUTF8?, dif_pos s.isValidUTF8]
  rfl

theorem decode?_eq_some_iff {bs : List UInt8} {s : String} :
    decode? bs = some s ↔ bs = encode s := by
  refine ⟨fun h => ?_, fun h => h ▸ decode?_encode s⟩
  simp only [decode?, String.fromUTF8?] at h
  split at h
  · obtain rfl := Option.some.inj h
    simp [encode, String.fromUTF8]
  · simp at h

end HostAbi.Utf8
