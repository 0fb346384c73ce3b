/-!
# Bytes and text

Streams arrive as bytes and are read as UTF-8. This file has the two conversions between lists of
bytes and text, and that each undoes the other.

## Main definitions

* `Text.decode?` — the text that some bytes encode
* `Text.encode` — the bytes that encode a text

## Main results

* `decode?_encode` — the bytes of a text encode that text
* `decode?_eq_some_iff` — bytes encode a text exactly when they are the bytes of that text
-/

namespace EventStream.Text

/-- The text that the bytes encode in UTF-8, or nothing when they are not valid UTF-8. -/
def decode? (bytes : List UInt8) : Option String :=
  String.fromUTF8? bytes.toByteArray

/-- The bytes of a text in UTF-8. -/
def encode (s : String) : List UInt8 :=
  s.toList.flatMap String.utf8EncodeChar

theorem toByteArray_encode (s : String) : (encode s).toByteArray = s.toByteArray :=
  String.utf8Encode_toList

theorem toByteArray_inj {l₁ l₂ : List UInt8} : l₁.toByteArray = l₂.toByteArray ↔ l₁ = l₂ := by
  refine ⟨fun h => ?_, fun h => h ▸ rfl⟩
  have hdata := congrArg ByteArray.data h
  simpa only [List.data_toByteArray, Array.mk.injEq] using hdata

theorem decode?_eq_some_iff {bytes : List UInt8} {s : String} :
    decode? bytes = some s ↔ bytes = encode s := by
  rw [← toByteArray_inj, toByteArray_encode, decode?, String.fromUTF8?]
  constructor
  · intro h
    split at h
    · rw [← Option.some.inj h]
      rfl
    · contradiction
  · intro h
    rw [h, dif_pos s.isValidUTF8]
    rfl

theorem decode?_encode (s : String) : decode? (encode s) = some s :=
  decode?_eq_some_iff.2 rfl

end EventStream.Text
