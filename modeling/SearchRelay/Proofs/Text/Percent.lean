import SearchRelay.Proofs.Text.Decimal
import SearchRelay.Proofs.Text.Utf8
import SearchRelay.Reference

/-!
The percent form gives the text back as long as the percent sign is always written in it. So a
document id gives the project and the key back, and tells the pages of a wiki from all else.
-/

namespace SearchRelay.Text

theorem encode_injective {a b : List Char} (same : encode a = encode b) : a = b := by
  have decoded := congrArg decode? same
  rwa [decode?_encode, decode?_encode, Option.some_inj] at decoded

theorem hexValue?_digit (digit : Fin 16) :
    hexValue? (Nat.digitChar digit).toUpper = some digit.val := by
  revert digit
  decide

theorem percentDecode_byte (byte : UInt8) (rest : List Char) :
    percentDecode (percentByte byte ++ rest) = byte :: percentDecode rest := by
  have bound := byte.toNat_lt
  have high := hexValue?_digit ⟨byte.toNat / 16, by omega⟩
  have low := hexValue?_digit ⟨byte.toNat % 16, by omega⟩
  have whole : byte.toNat / 16 * 16 + byte.toNat % 16 = byte.toNat := by omega
  simp only [percentByte, hexByte, List.map_cons, List.map_nil, List.cons_append, List.nil_append,
    percentDecode, high, low, whole, UInt8.ofNat_toNat]

theorem percentDecode_bytes (bytes : Bytes) (rest : List Char) :
    percentDecode (bytes.flatMap percentByte ++ rest) = bytes ++ percentDecode rest := by
  induction bytes with
  | nil => rfl
  | cons byte bytes ih =>
    rw [List.flatMap_cons, List.append_assoc, percentDecode_byte, ih, List.cons_append]

theorem percentDecode_plain {c : Char} (plain : c ≠ '%') (rest : List Char) :
    percentDecode (c :: rest) = String.utf8EncodeChar c ++ percentDecode rest := by
  rw [percentDecode]
  intro _ _ _ percent
  exact absurd percent plain

/-- Reading a percent form gives the bytes of the text. -/
theorem percentDecode_encode {isEncoded : Char → Bool} (percent : isEncoded '%' = true)
    (text : List Char) : percentDecode (percentEncode isEncoded text) = encode text := by
  induction text with
  | nil => rfl
  | cons c text ih =>
    change percentDecode ((if isEncoded c then _ else [c]) ++ percentEncode isEncoded text) =
      String.utf8EncodeChar c ++ encode text
    rw [← ih]
    split
    next => exact percentDecode_bytes _ _
    next plain =>
      apply percentDecode_plain
      rintro rfl
      exact plain percent

/-- No blank stands in the percent form of a text in which blanks are written by their bytes. -/
theorem isSpace_percentEncode {isEncoded : Char → Bool}
    (spaces : ∀ c, isSpace c → isEncoded c) {text : List Char} {c : Char}
    (inside : c ∈ percentEncode isEncoded text) : isSpace c = false := by
  have digits : ∀ n < 16, isSpace (Nat.digitChar n).toUpper = false := by decide
  obtain ⟨plain, -, written⟩ := List.mem_flatMap.1 inside
  split at written
  next =>
    obtain ⟨byte, -, escape⟩ := List.mem_flatMap.1 written
    have bound := byte.toNat_lt
    simp only [percentByte, hexByte, List.map_cons, List.map_nil, List.mem_cons, List.not_mem_nil,
      or_false] at escape
    rcases escape with rfl | rfl | rfl
    · rfl
    · exact digits _ (by omega)
    · exact digits _ (by omega)
  next stays =>
    obtain rfl := List.mem_singleton.1 written
    exact Bool.eq_false_iff.2 fun space => stays (spaces c space)

/-- Each character that is encoded makes the text longer. -/
theorem le_length_percentEncode (isEncoded : Char → Bool) (text : List Char) :
    text.length + text.countP isEncoded ≤ (percentEncode isEncoded text).length := by
  induction text with
  | nil => exact Nat.zero_le _
  | cons c text ih =>
    rw [percentEncode, List.flatMap_cons, ← percentEncode, List.length_append, List.length_cons,
      List.countP_cons]
    split
    next =>
      have bytes := c.utf8Size_pos
      have long : ((String.utf8EncodeChar c).flatMap percentByte).length = c.utf8Size * 3 := by
        simp [List.length_flatMap, percentByte, hexByte]
      omega
    next => rw [List.length_singleton]; omega

theorem percentEncode_eq_self_iff {isEncoded : Char → Bool} {text : List Char} :
    percentEncode isEncoded text = text ↔ ∀ c ∈ text, ¬ isEncoded c := by
  constructor
  · intro same
    have long := le_length_percentEncode isEncoded text
    rw [same] at long
    exact List.countP_eq_zero.1 (by omega)
  · intro plain
    have stays : percentEncode isEncoded text = text.flatMap fun c => [c] :=
      List.flatMap_congr fun c inside => if_neg (plain c inside)
    rw [stays, List.flatMap_singleton']

end SearchRelay.Text

namespace SearchRelay.Reference

theorem percentDecode_escapeKey (key : List Char) :
    Text.percentDecode (escapeKey key) = Text.encode key :=
  Text.percentDecode_encode rfl key

theorem escapeKey_injective {a b : List Char} (same : escapeKey a = escapeKey b) : a = b := by
  apply Text.encode_injective
  rw [← percentDecode_escapeKey, same, percentDecode_escapeKey]

/-- Among ids of one kind each gives the project and the key back. -/
theorem repositoryId_inj {kind : Kind} {project number : Nat} {key name : String} :
    repositoryId kind project key = repositoryId kind number name ↔
      project = number ∧ key = name := by
  constructor
  · intro same
    have texts := String.ofList_injective same
    rw [List.append_assoc, List.append_assoc, List.append_cancel_left_eq] at texts
    obtain ⟨rfl, keys⟩ := Text.decimal_append_injective texts
    exact ⟨rfl, String.toList_injective (escapeKey_injective keys)⟩
  · rintro ⟨rfl, rfl⟩
    rfl

/-- The ids of wiki pages begin with a letter, and all the others with a digit. -/
theorem repositoryId_first (kind : Kind) (project : Nat) (key : String) :
    ∃ first rest, (repositoryId kind project key).toList = first :: rest ∧
      (first = 'w' ↔ kind = .wikiBlob) ∧ (first = 'w' ∨ first.isDigit) := by
  rw [repositoryId, String.toList_ofList]
  split
  next wiki => exact ⟨'w', _, rfl, by simp [wiki], Or.inl rfl⟩
  next other =>
    obtain ⟨first, rest, split, digit, -⟩ := Text.decimal_first project
    refine ⟨first, _, by rw [split]; rfl, iff_of_false ?_ other, Or.inr digit⟩
    rintro rfl
    exact absurd digit (by decide)

theorem wikiId_ne_repositoryId {kind : Kind} (other : kind ≠ .wikiBlob) (project number : Nat)
    (path key : String) : repositoryId .wikiBlob project path ≠ repositoryId kind number key := by
  intro same
  obtain ⟨first, rest, text, page, -⟩ := repositoryId_first .wikiBlob project path
  obtain ⟨start, more, split, object, -⟩ := repositoryId_first kind number key
  rw [same, split] at text
  obtain ⟨rfl, -⟩ := List.cons.inj text
  exact other (object.1 (page.2 rfl))

/-- Outside of wikis an id does not tell the kind. -/
theorem repositoryId_eq_iff {kind other : Kind} (first : kind ≠ .wikiBlob)
    (second : other ≠ .wikiBlob) {project number : Nat} {key name : String} :
    repositoryId kind project key = repositoryId other number name ↔
      project = number ∧ key = name := by
  have plain : repositoryId kind project key = repositoryId other project key := by
    rw [repositoryId, repositoryId, if_neg first, if_neg second]
  rw [plain, repositoryId_inj]

/-- An id of an object in a repository belongs to one project and one key of its kind. The key is
written in it without blanks, decodes to what it was, and is written as it is unless it holds a
blank or a percent sign. -/
theorem repositoryId_faithful (kind : Kind) :
    (∀ project number key name, (ofRepository kind project key).searchId =
      (ofRepository kind number name).searchId ↔ project = number ∧ key = name) ∧
    ∀ key : List Char,
      (∀ c ∈ escapeKey key, Text.isSpace c = false) ∧
      Text.decode? (Text.percentDecode (escapeKey key)) = some key ∧
      (escapeKey key = key ↔ ∀ c ∈ key, c ≠ '%' ∧ Text.isSpace c = false) := by
  refine ⟨fun project number key name => repositoryId_inj, fun key => ⟨?_, ?_, ?_⟩⟩
  · intro c inside
    exact Text.isSpace_percentEncode (fun c space => by simp [space]) inside
  · rw [percentDecode_escapeKey, Text.decode?_encode]
  · rw [escapeKey, Text.percentEncode_eq_self_iff]
    simp

/-- A name with a wide blank, a percent sign and digits like those of a project in front. -/
theorem repositoryId_faithful_awkward :
    let name := "7_50%\u3000off.md".toList
    (ofRepository .blob 4 "7_a").searchId ≠ (ofRepository .blob 47 "_a").searchId ∧
      escapeKey name = "7_50%25%E3%80%80off.md".toList ∧
      Text.decode? (Text.percentDecode (escapeKey name)) = some name ∧
      escapeKey "docs/read-me.md".toList = "docs/read-me.md".toList := by
  intro name
  obtain ⟨apart, keys⟩ := repositoryId_faithful .blob
  obtain ⟨-, back, -⟩ := keys name
  obtain ⟨-, -, stays⟩ := keys "docs/read-me.md".toList
  refine ⟨?_, by decide, back, stays.2 (by simp [Text.isSpace])⟩
  rw [ne_eq, apart]
  decide

end SearchRelay.Reference
