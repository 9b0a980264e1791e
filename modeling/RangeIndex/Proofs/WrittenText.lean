import RangeIndex.Markup.Event
import RangeIndex.Proofs.EncodedText
import RangeIndex.Text.Pieces

/-! Texts and names as they are written in markup. A text may refer to five characters by name, and
has to for those that would end it or begin a reference; reading it back decodes each reference and
nothing else. A name is written as its bytes and ends before the first byte that no name has. -/
namespace RangeIndex.WrittenText
open Text Markup EncodedText

section Definitions

/-- The characters that can be referred to by name. -/
def references : List (Char × String) :=
  [('<', "lt"), ('>', "gt"), ('&', "amp"), ('"', "quot"), ('\'', "apos")]

/-- A reference by name. -/
def referenceBytes (name : String) : List UInt8 := byteOf '&' :: (bytesOf name ++ [byteOf ';'])

/-- A text and bytes it may be written as, where some characters must not stand for themselves. -/
inductive Escaped (barred : List Char) : List Char → List UInt8 → Prop where
  | nil : Escaped barred [] []
  | plain {c : Char} {text : List Char} {bytes : List UInt8} (free : c ∉ barred)
      (after : Escaped barred text bytes) :
      Escaped barred (c :: text) (String.utf8EncodeChar c ++ bytes)
  | reference {c : Char} {name : String} {text : List Char} {bytes : List UInt8}
      (named : (c, name) ∈ references) (after : Escaped barred text bytes) :
      Escaped barred (c :: text) (referenceBytes name ++ bytes)

/-- A name as markup takes it: a byte that can start a name, then bytes that can go on one. -/
def IsName (name : String) : Prop :=
  ∃ first others, Utf8.encode name.toList = first :: others ∧ isNameStart first = true ∧
    ∀ b ∈ others, isNameByte b = true

end Definitions

section References
variable {barred text : List Char} {bytes rest : List UInt8}

/-- A reference by name is read up to its semicolon. -/
theorem reference_taken {c : Char} {name : String} (named : (c, name) ∈ references)
    (rest : List UInt8) :
    takeReference (bytesOf name ++ byteOf ';' :: rest) = some (c, rest) := by
  have all : (c, name) = ('<', "lt") ∨ (c, name) = ('>', "gt") ∨ (c, name) = ('&', "amp") ∨
      (c, name) = ('"', "quot") ∨ (c, name) = ('\'', "apos") := by
    simpa [references] using named
  rcases all with same | same | same | same | same <;> cases same <;> rfl

/-- Bytes without an ampersand are left as they are. -/
theorem decode_references_run (plain : byteOf '&' ∉ bytes) (rest : List UInt8) :
    decodeReferences (bytes ++ rest) = bytes ++ decodeReferences rest := by
  induction bytes with
  | nil => rfl
  | cons b bytes ih =>
    rw [List.mem_cons, not_or] at plain
    have other : b ≠ 0x26 := Ne.symm plain.1
    rw [List.cons_append, decodeReferences, if_neg other, ih plain.2, List.cons_append]

theorem decode_reference {c : Char} {name : String} (named : (c, name) ∈ references)
    (rest : List UInt8) :
    decodeReferences (referenceBytes name ++ rest) =
      String.utf8EncodeChar c ++ decodeReferences rest := by
  have taken := reference_taken named rest
  have whole : referenceBytes name ++ rest = 0x26 :: (bytesOf name ++ byteOf ';' :: rest) := by
    rw [referenceBytes, List.cons_append, List.append_assoc, List.singleton_append]
    rfl
  rw [whole, decodeReferences, if_pos rfl]
  split
  · rename_i found
    rw [taken] at found
    cases found
    rfl
  · rename_i missing
    rw [taken] at missing
    cases missing

theorem decode_references_escaped (ampersand : '&' ∈ barred) (escaped : Escaped barred text bytes) :
    decodeReferences bytes = Utf8.encode text := by
  induction escaped with
  | nil => simp [decodeReferences, Utf8.encode]
  | @plain c text bytes free after ih =>
    have other : byteOf '&' ∉ String.utf8EncodeChar c := fun found =>
      free (found_is_same (by decide) found ▸ ampersand)
    rw [decode_references_run other, ih, encode_cons]
  | reference named after ih => rw [decode_reference named, ih, encode_cons]

/-- Leaving out the search for references where there is no ampersand makes no difference. -/
theorem decode_bytes_eq (bytes : List UInt8) : decodeBytes bytes = decodeReferences bytes := by
  unfold decodeBytes
  split
  · rfl
  · rename_i none
    have plain : (0x26 : UInt8) ∉ bytes := by simpa using none
    have all : decodeReferences (bytes ++ []) = bytes ++ decodeReferences [] :=
      decode_references_run plain []
    rw [List.append_nil, decodeReferences, List.append_nil] at all
    exact all.symm

/-- Escaped bytes are read as the text they were written for. -/
theorem reference_text_escaped {text : String} (ampersand : '&' ∈ barred)
    (escaped : Escaped barred text.toList bytes) : referenceText bytes = text := by
  rw [referenceText, decodeText, decode_bytes_eq, decode_references_escaped ampersand escaped,
    decode_encode, String.ofList_toList]

/-- A barred character does not occur, unless references are spelled with it. -/
theorem barred_not_written {d : Char} (low : Low d) (barred' : d ∈ barred)
    (other : ∀ pair ∈ references, byteOf d ∉ referenceBytes pair.2)
    (escaped : Escaped barred text bytes) : byteOf d ∉ bytes := by
  induction escaped with
  | nil => exact List.not_mem_nil
  | plain free after ih =>
    rw [List.mem_append, not_or]
    exact ⟨fun found => free (found_is_same low found ▸ barred'), ih⟩
  | reference named after ih =>
    rw [List.mem_append, not_or]
    exact ⟨other _ named, ih⟩

/-- Every text can be written, if there is a reference for each barred character. -/
theorem exists_escaped (known : ∀ c ∈ barred, ∃ name, (c, name) ∈ references) (text : List Char) :
    ∃ bytes, Escaped barred text bytes := by
  induction text with
  | nil => exact ⟨[], .nil⟩
  | cons c text ih =>
    obtain ⟨bytes, after⟩ := ih
    by_cases free : c ∈ barred
    · obtain ⟨name, named⟩ := known c free
      exact ⟨_, .reference named after⟩
    · exact ⟨_, .plain free after⟩

end References

section Names
variable {name : String} {rest : List UInt8}

theorem plain_text_encoded (text : String) : plainText (Utf8.encode text.toList) = text := by
  rw [plainText, decode_encode, String.ofList_toList]

/-- A name is taken up to the first byte that does not go on a name. -/
theorem name_taken (is : IsName name) (ends : ∀ b, rest.head? = some b → isNameByte b = false) :
    takeName (Utf8.encode name.toList ++ rest) = some (Utf8.encode name.toList, rest) := by
  obtain ⟨first, others, bytes, starts, goOn⟩ := is
  rw [bytes, List.cons_append, takeName, if_pos starts, takeWhile_run goOn ends,
    dropWhile_run goOn ends]

end Names

section Cutting
variable {b : UInt8} {before after : List UInt8}

/-- Bytes are cut where a byte that they do not have begins the rest. -/
theorem break_before (clear : b ∉ before) (ends : ∀ x, after.head? = some x → x = b) :
    breakAt b (before ++ after) = (before, after) := by
  have passes : ∀ x ∈ before, (x != b) = true := fun x member =>
    bne_iff_ne.mpr fun same => clear (same ▸ member)
  have stops : ∀ x, after.head? = some x → (x != b) = false := fun x front =>
    bne_eq_false_iff_eq.mpr (ends x front)
  rw [breakAt, takeWhile_run passes stops, dropWhile_run passes stops]

theorem break_at_mark (clear : b ∉ before) (after : List UInt8) :
    breakAt b (before ++ b :: after) = (before, b :: after) :=
  break_before clear fun _ front => (Option.some.inj front).symm

end Cutting

end RangeIndex.WrittenText
