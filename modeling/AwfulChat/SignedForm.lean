import AwfulChat.Library.NumberValues
import AwfulChat.StoreAndForward

/-!
# What a signature covers

The canonical form of a message with its files, over messages of the declared types. The form is an
array in JSON, in which a file with a descriptor stands as an array of its own and one without as
its fields with colons between them. The second does not say where one field ends.
-/

namespace AwfulChat.SignedForm

open Library RoomSecurity StoreAndForward List Option

set_option autoImplicit false

/-- An optional field, which may also be there and null. -/
inductive Maybe (Value : Type)
  | absent
  | null
  | some (value : Value)

section Maybe

variable {Value : Type}

def Maybe.known : Maybe Value → Option Value
  | .absent => none
  | .null => none
  | .some value => Option.some value

def Maybe.json (write : Value → Json) : Maybe Value → Option Json
  | .absent => none
  | .null => Option.some .null
  | .some value => Option.some (write value)

end Maybe

structure EncryptedFileDescriptor where
  version : JsNumber
  key : Text
  id : Text
  size : JsNumber
  chunkSize : JsNumber

structure FileEntry where
  encryption : Maybe EncryptedFileDescriptor
  filename : Text
  mimeType : Text
  size : JsNumber
  infoHash : Text
  width : Maybe JsNumber
  height : Maybe JsNumber

structure ReplyTo where
  id : Text
  senderName : Text
  content : Text

/-- What `canonicalContentV3` takes: the fields of a message that it reads, as they are declared. -/
structure SignableMessage where
  type : Maybe Text
  roomCode : Maybe Text
  id : Text
  senderId : Text
  lamport : JsNumber
  content : Text
  reactionTo : Maybe Text
  reactionEmoji : Maybe Text
  reactionOp : Maybe Text
  replyTo : Maybe ReplyTo
  files : Maybe (List FileEntry)
  timestamp : Maybe JsNumber

def optionalField (name : String) (value : Option Json) : List (Text × Json) :=
  (value.map fun json => (text name, json)).toList

def EncryptedFileDescriptor.json (descriptor : EncryptedFileDescriptor) : Json :=
  .object [(text "version", .number descriptor.version), (text "key", .string descriptor.key),
    (text "id", .string descriptor.id), (text "size", .number descriptor.size),
    (text "chunkSize", .number descriptor.chunkSize)]

def FileEntry.json (file : FileEntry) : Json :=
  .object ([(text "filename", .string file.filename), (text "mimeType", .string file.mimeType),
    (text "size", .number file.size), (text "infoHash", .string file.infoHash)] ++
    (optionalField "encryption" (file.encryption.json EncryptedFileDescriptor.json) ++
      (optionalField "width" (file.width.json .number) ++
        optionalField "height" (file.height.json .number))))

def ReplyTo.json (replyTo : ReplyTo) : Json :=
  .object [(text "id", .string replyTo.id), (text "senderName", .string replyTo.senderName),
    (text "content", .string replyTo.content)]

def filesJson (files : List FileEntry) : Json := .array (files.map FileEntry.json)

def SignableMessage.signable (message : SignableMessage) : Signable where
  type := message.type.known
  roomCode := message.roomCode.known
  id := some (.string message.id)
  senderId := some (.string message.senderId)
  lamport := some (.number message.lamport)
  content := some (.string message.content)
  reactionTo := message.reactionTo.json .string
  reactionEmoji := message.reactionEmoji.json .string
  reactionOp := message.reactionOp.json .string
  replyTo := message.replyTo.json ReplyTo.json
  metadata := some (.object (optionalField "files" (message.files.json filesJson)))
  timestamp := message.timestamp.json .number

section Sameness

structure SameDescriptor (left right : EncryptedFileDescriptor) : Prop where
  version : left.version.value = right.version.value
  key : left.key = right.key
  id : left.id = right.id
  size : left.size.value = right.size.value
  chunkSize : left.chunkSize.value = right.chunkSize.value

structure SameFile (left right : FileEntry) : Prop where
  infoHash : left.infoHash = right.infoHash
  size : left.size.value = right.size.value
  mimeType : left.mimeType = right.mimeType
  filename : left.filename = right.filename
  encryption : Option.Rel SameDescriptor left.encryption.known right.encryption.known

/-- Equal in all the form is to cover, absent and null taken for one. -/
structure SameMessage (left right : SignableMessage) : Prop where
  type : left.type.known = right.type.known
  roomCode : left.roomCode.known = right.roomCode.known
  id : left.id = right.id
  senderId : left.senderId = right.senderId
  lamport : left.lamport.value = right.lamport.value
  content : left.content = right.content
  reactionTo : left.reactionTo.known = right.reactionTo.known
  reactionEmoji : left.reactionEmoji.known = right.reactionEmoji.known
  reactionOp : left.reactionOp.known = right.reactionOp.known
  quoted : left.replyTo.known.map ReplyTo.id = right.replyTo.known.map ReplyTo.id
  files : Option.Rel (List.Forall₂ SameFile) left.files.known right.files.known

def colons (value : Text) : Nat := value.count 58

/-- Both have a descriptor, or neither has and their fields hold equally many colons. -/
def SplitAlike (left right : FileEntry) : Prop :=
  match left.encryption.known, right.encryption.known with
  | some _, some _ => True
  | none, none =>
    colons left.infoHash = colons right.infoHash ∧ colons left.mimeType = colons right.mimeType
  | _, _ => False

/-- Every file of one is split as that of the other, and a lamport that is no finite number is
that of the other. -/
structure ReadAlike (left right : SignableMessage) : Prop where
  lamport : left.lamport.isFinite = true ∨ left.lamport.value = right.lamport.value
  files : Option.Rel (List.Forall₂ SplitAlike) left.files.known right.files.known

end Sameness

section Fields

theorem or_null_json (write : Text → Json) (value : Maybe Text) :
    orNull (value.json write) = orNull (value.known.map write) := by
  cases value <;> rfl

theorem property_found (name : Text) (value : Json) (rest : List (Text × Json)) :
    property (some (.object ((name, value) :: rest))) name = some value := by
  simp [property]

theorem property_passed {name other : Text} (apart : other ≠ name) (value : Json)
    (rest : List (Text × Json)) :
    property (some (.object ((other, value) :: rest))) name = property (some (.object rest)) name := by
  simp [property, apart]

theorem property_none (name : Text) : property (some (.object [])) name = none := rfl

theorem property_passed_optional {name : Text} {other : String} (apart : text other ≠ name)
    (value : Option Json) (rest : List (Text × Json)) :
    property (some (.object (optionalField other value ++ rest))) name =
      property (some (.object rest)) name := by
  cases value with
  | none => rfl
  | some json => exact property_passed apart json rest

theorem property_optional (name : String) (value : Option Json) (rest : List (Text × Json))
    (absent : property (some (.object rest)) (text name) = none) :
    property (some (.object (optionalField name value ++ rest))) (text name) = value := by
  cases value with
  | none => exact absent
  | some json => exact property_found _ _ _

variable (file : FileEntry)

theorem file_info_hash : property (some file.json) (text "infoHash") =
    some (.string file.infoHash) := by
  unfold FileEntry.json
  simp only [cons_append, nil_append]
  rw [property_passed (by decide), property_passed (by decide), property_passed (by decide),
    property_found]

theorem file_size : property (some file.json) (text "size") = some (.number file.size) := by
  unfold FileEntry.json
  simp only [cons_append, nil_append]
  rw [property_passed (by decide), property_passed (by decide), property_found]

theorem file_mime_type : property (some file.json) (text "mimeType") =
    some (.string file.mimeType) := by
  unfold FileEntry.json
  simp only [cons_append, nil_append]
  rw [property_passed (by decide), property_found]

theorem file_name : property (some file.json) (text "filename") =
    some (.string file.filename) := by
  unfold FileEntry.json
  simp only [cons_append, nil_append]
  rw [property_found]

theorem file_encryption : property (some file.json) (text "encryption") =
    file.encryption.json EncryptedFileDescriptor.json := by
  unfold FileEntry.json
  simp only [cons_append, nil_append]
  rw [property_passed (by decide), property_passed (by decide), property_passed (by decide),
    property_passed (by decide)]
  apply property_optional
  rw [property_passed_optional (by decide), ← append_nil (optionalField "height" _),
    property_passed_optional (by decide), property_none]

def plainBinding : Text :=
  file.infoHash ++ 58 :: (Json.numberText file.size ++ 58 :: (file.mimeType ++ 58 :: file.filename))

def descriptorBinding (descriptor : EncryptedFileDescriptor) : Text :=
  Json.stringify (.array [.string (text "awful:file-descriptor:v2"), .string file.infoHash,
    .number file.size, .string file.mimeType, .string file.filename, .number descriptor.version,
    .string descriptor.key, .string descriptor.id, .number descriptor.size,
    .number descriptor.chunkSize, orNull (property (some file.json) (text "width")),
    orNull (property (some file.json) (text "height"))])

theorem plain_binding (plain : file.encryption.known = none) :
    fileSignatureBinding file.json = some (plainBinding file) := by
  have untrue : truthy (property (some file.json) (text "encryption")) = false := by
    rw [file_encryption]
    cases shape : file.encryption with
    | absent | null => rfl
    | some descriptor =>
      rw [shape] at plain
      cases plain
  have strict : strictProperty (some file.json) (text "infoHash") =
      some (some (.string file.infoHash)) := by
    rw [← file_info_hash]
    rfl
  unfold fileSignatureBinding
  simp only [strict, untrue, file_size, file_mime_type, file_name, bind_eq_bind,
    bind_some, templateText, toText, Bool.false_eq_true, if_false]
  unfold plainBinding
  simp only [append_assoc, cons_append]

theorem safe_integer_finite {number : JsNumber} {value : Int}
    (safe : safeInteger (some (.number number)) = some value) : number.isFinite = true := by
  cases number with
  | finite negative coefficient exponent => rfl
  | infinite negative | nan => cases safe

/-- What is bound of a file with a descriptor, and that the descriptor passed its check. -/
structure DescriptorBound (descriptor : EncryptedFileDescriptor) (binding : Text) : Prop where
  written : binding = descriptorBinding file descriptor
  fileSize : file.size.isFinite = true
  version : descriptor.version.isFinite = true
  size : descriptor.size.isFinite = true
  chunkSize : descriptor.chunkSize.isFinite = true

theorem descriptor_binding {descriptor : EncryptedFileDescriptor} {binding : Text}
    (described : file.encryption.known = some descriptor)
    (bound : fileSignatureBinding file.json = some binding) :
    DescriptorBound file descriptor binding := by
  have shape : property (some file.json) (text "encryption") = some descriptor.json := by
    rw [file_encryption]
    cases shape : file.encryption with
    | absent | null =>
      rw [shape] at described
      cases described
    | some found =>
      rw [shape] at described
      cases described
      rfl
  have strict : strictProperty (some file.json) (text "infoHash") =
      some (some (.string file.infoHash)) := by
    rw [← file_info_hash]
    rfl
  have version : property (some descriptor.json) (text "version") =
      some (.number descriptor.version) := property_found _ _ _
  have key : property (some descriptor.json) (text "key") = some (.string descriptor.key) := by
    unfold EncryptedFileDescriptor.json
    rw [property_passed (by decide), property_found]
  have id : property (some descriptor.json) (text "id") = some (.string descriptor.id) := by
    unfold EncryptedFileDescriptor.json
    rw [property_passed (by decide), property_passed (by decide), property_found]
  have size : property (some descriptor.json) (text "size") = some (.number descriptor.size) := by
    unfold EncryptedFileDescriptor.json
    rw [property_passed (by decide), property_passed (by decide), property_passed (by decide),
      property_found]
  have chunkSize : property (some descriptor.json) (text "chunkSize") =
      some (.number descriptor.chunkSize) := by
    unfold EncryptedFileDescriptor.json
    rw [property_passed (by decide), property_passed (by decide), property_passed (by decide),
      property_passed (by decide), property_found]
  unfold fileSignatureBinding at bound
  simp only [strict, shape, file_size, file_mime_type, file_name, bind_eq_bind,
    bind_some, templateText, toText, version, key, id, size, chunkSize] at bound
  have object : truthy (some descriptor.json) = true := rfl
  rw [if_pos object] at bound
  split_ifs at bound with allowed
  unfold encryptedFileSizeAllowed validateFileEncryption at allowed
  simp only [shape, version, size, chunkSize, file_size, Bool.and_eq_true, decide_eq_true_eq]
    at allowed
  obtain ⟨⟨⟨⟨⟨⟨-, two⟩, chunk⟩, bounded⟩, -⟩, -⟩, equal⟩ := allowed
  have whole : ∃ value, safeInteger (some (.number descriptor.size)) = some value := by
    cases read : safeInteger (some (.number descriptor.size)) with
    | none =>
      rw [read] at bounded
      cases bounded
    | some value => exact ⟨value, rfl⟩
  obtain ⟨value, read⟩ := whole
  exact ⟨(Option.some.inj bound).symm, safe_integer_finite (equal.trans read),
    safe_integer_finite two, safe_integer_finite read, safe_integer_finite chunk⟩

end Fields

section Files

theorem array_reread {left right : List Json}
    (same : Json.stringify (.array left) = Json.stringify (.array right)) :
    Json.rereadItems left = Json.rereadItems right := by
  have read := congrArg Json.parse same
  rw [Json.parse_stringify, Json.parse_stringify] at read
  exact Json.array.inj (Option.some.inj read)

theorem descriptors_same {left right : FileEntry} {first second : EncryptedFileDescriptor}
    {binding : Text} (described : left.encryption.known = some first)
    (other : right.encryption.known = some second) (one : DescriptorBound left first binding)
    (two : DescriptorBound right second binding) : SameFile left right := by
  have items := array_reread (one.written.symm.trans two.written)
  simp only [Json.rereadItems, Json.reread, List.cons.injEq, Json.string.injEq, and_true, true_and]
    at items
  obtain ⟨infoHash, size, mimeType, filename, version, key, id, inner, chunkSize, -, -⟩ := items
  refine ⟨infoHash, Json.reread_same_value one.fileSize size, mimeType, filename, ?_⟩
  rw [described, other]
  exact .some ⟨Json.reread_same_value one.version version, key, id,
    Json.reread_same_value one.size inner, Json.reread_same_value one.chunkSize chunkSize⟩

theorem plain_same {left right : FileEntry} (plain : left.encryption.known = none)
    (other : right.encryption.known = none) (bindings : plainBinding left = plainBinding right)
    (infoHashes : colons left.infoHash = colons right.infoHash)
    (mimeTypes : colons left.mimeType = colons right.mimeType) : SameFile left right := by
  obtain ⟨infoHash, behind⟩ := split_at_mark infoHashes bindings
  have sizes : (Json.numberText left.size).count 58 = (Json.numberText right.size).count 58 := by
    rw [count_eq_zero_of_not_mem (Json.number_text_no_colon _),
      count_eq_zero_of_not_mem (Json.number_text_no_colon _)]
  obtain ⟨size, rest⟩ := split_at_mark sizes behind
  obtain ⟨mimeType, filename⟩ := split_at_mark mimeTypes rest
  refine ⟨infoHash, Json.number_text_value size, mimeType, filename, ?_⟩
  rw [plain, other]
  exact .none

theorem same_file_iff {left right : FileEntry} {binding : Text}
    (one : fileSignatureBinding left.json = some binding)
    (two : fileSignatureBinding right.json = some binding) :
    SameFile left right ↔ SplitAlike left right := by
  cases described : left.encryption.known with
  | none =>
    rw [plain_binding left described] at one
    cases other : right.encryption.known with
    | none =>
      rw [plain_binding right other] at two
      have bindings := Option.some.inj (one.trans two.symm)
      unfold SplitAlike
      rw [described, other]
      constructor
      · intro same
        exact ⟨by rw [same.infoHash], by rw [same.mimeType]⟩
      · rintro ⟨infoHashes, mimeTypes⟩
        exact plain_same described other bindings infoHashes mimeTypes
    | some second =>
      unfold SplitAlike
      rw [described, other]
      refine iff_of_false ?_ id
      intro same
      have both := same.encryption
      rw [described, other] at both
      cases both
  | some first =>
    have bound := descriptor_binding left described one
    cases other : right.encryption.known with
    | none =>
      unfold SplitAlike
      rw [described, other]
      refine iff_of_false ?_ id
      intro same
      have both := same.encryption
      rw [described, other] at both
      cases both
    | some second =>
      have boundToo := descriptor_binding right other two
      unfold SplitAlike
      rw [described, other]
      exact iff_of_true (descriptors_same described other bound boundToo) trivial

def Bound (file : FileEntry) (binding : Text) : Prop :=
  fileSignatureBinding file.json = some binding

theorem same_files_iff {lefts rights : List FileEntry} {bindings : List Text}
    (one : List.Forall₂ Bound lefts bindings) (two : List.Forall₂ Bound rights bindings) :
    List.Forall₂ SameFile lefts rights ↔ List.Forall₂ SplitAlike lefts rights := by
  induction one generalizing rights with
  | nil =>
    cases two
    exact iff_of_true .nil .nil
  | cons bound rest ih =>
    cases two with
    | cons other others =>
      rw [forall₂_cons, forall₂_cons, same_file_iff bound other, ih others]

theorem files_bound {files : List FileEntry} {bindings : List Text}
    (mapped : (files.map FileEntry.json).mapM fileSignatureBinding = some bindings) :
    List.Forall₂ Bound files bindings := by
  induction files generalizing bindings with
  | nil =>
    cases mapped
    exact .nil
  | cons file rest ih =>
    rw [map_cons, mapM_cons] at mapped
    obtain ⟨first, bound, later⟩ := bind_eq_some_iff.mp mapped
    obtain ⟨others, remaining, same⟩ := bind_eq_some_iff.mp later
    cases same
    exact .cons bound (ih remaining)

/-- What stands for the files of a message. -/
def FilesBound (files : Maybe (List FileEntry)) (written : Json) : Prop :=
  match files.known with
  | none => written = .null
  | some list => ∃ bindings, List.Forall₂ Bound list bindings ∧
      written = .array (bindings.map Json.string)

theorem files_binding {files : Maybe (List FileEntry)} {written : Json}
    (bound : filesBinding (some (.object (optionalField "files" (files.json filesJson)))) =
      some written) : FilesBound files written := by
  have read : property (some (.object (optionalField "files" (files.json filesJson))))
      (text "files") = files.json filesJson := by
    rw [← append_nil (optionalField _ _)]
    exact property_optional _ _ _ (property_none _)
  unfold filesBinding at bound
  rw [read] at bound
  cases files with
  | absent | null => exact (Option.some.inj bound).symm
  | some list =>
    obtain ⟨bindings, mapped, same⟩ := bind_eq_some_iff.mp bound
    cases same
    exact ⟨bindings, files_bound mapped, rfl⟩

theorem reread_strings (values : List Text) :
    Json.reread (.array (values.map Json.string)) = .array (values.map Json.string) := by
  have items : Json.rereadItems (values.map Json.string) = values.map Json.string := by
    induction values with
    | nil => rfl
    | cons value rest ih =>
      rw [map_cons, Json.rereadItems, ih]
      rfl
  rw [Json.reread, items]

theorem bound_files_iff {left right : Maybe (List FileEntry)} {first second : Json}
    (one : FilesBound left first) (two : FilesBound right second)
    (same : Json.reread first = Json.reread second) :
    Option.Rel (List.Forall₂ SameFile) left.known right.known ↔
      Option.Rel (List.Forall₂ SplitAlike) left.known right.known := by
  unfold FilesBound at one two
  cases lefts : left.known with
  | none =>
    rw [lefts] at one
    cases rights : right.known with
    | none => exact iff_of_true .none .none
    | some others =>
      rw [rights] at two
      obtain ⟨bindings, -, written⟩ := two
      rw [one, written, reread_strings] at same
      cases same
  | some list =>
    rw [lefts] at one
    obtain ⟨bindings, bound, written⟩ := one
    cases rights : right.known with
    | none =>
      rw [rights] at two
      rw [two, written, reread_strings] at same
      cases same
    | some others =>
      rw [rights] at two
      obtain ⟨more, boundToo, writtenToo⟩ := two
      rw [written, writtenToo, reread_strings, reread_strings] at same
      have equal : bindings = more :=
        map_injective_iff.mpr (fun _ _ => Json.string.inj) (Json.array.inj same)
      subst equal
      rw [rel_some_some, rel_some_some]
      exact same_files_iff bound boundToo

end Files

section Canonical

variable {left right : SignableMessage} {canonical : Text}

theorem reread_optional {left right : Option Text}
    (same : Json.reread (orNull (left.map Json.string)) =
      Json.reread (orNull (right.map Json.string))) : left = right := by
  cases left <;> cases right <;> simp_all [orNull, Json.reread]

theorem quoted_id (replyTo : Maybe ReplyTo) :
    orNull (property (replyTo.json ReplyTo.json) (text "id")) =
      orNull ((replyTo.known.map ReplyTo.id).map Json.string) := by
  cases replyTo with
  | absent | null => rfl
  | some reply =>
    have found : property (some reply.json) (text "id") = some (.string reply.id) :=
      property_found _ _ _
    change orNull (property (some reply.json) (text "id")) = _
    rw [found]
    rfl

/-- The items of the form that stand in every message. -/
def signedItems (message : SignableMessage) (files : Json) : List Json :=
  [.number (.finite false 3 0), orNull (message.type.known.map Json.string),
    orNull (message.roomCode.known.map Json.string), .string message.id, .string message.senderId,
    .number message.lamport, .string message.content,
    orNull (message.reactionTo.known.map Json.string),
    orNull (message.reactionEmoji.known.map Json.string),
    orNull (message.reactionOp.known.map Json.string),
    orNull ((message.replyTo.known.map ReplyTo.id).map Json.string), files]

theorem canonical_items {message : SignableMessage}
    (written : canonicalContentV3 message.signable = some canonical) :
    ∃ files rest, FilesBound message.files files ∧
      canonical = Json.stringify (.array (signedItems message files ++ rest)) := by
  obtain ⟨files, bound, same⟩ := bind_eq_some_iff.mp written
  refine ⟨files, if message.type.known = some (text "plugin_ephemeral") then
    [orNull (message.timestamp.json .number)] else [], files_binding bound, ?_⟩
  rw [← Option.some.inj same]
  unfold signedItems SignableMessage.signable
  simp only [or_null_json, quoted_id]
  rfl

/-- Messages of one signed form are equal in all it is to cover exactly where their files are read
alike. -/
theorem same_form_same_message_iff (one : canonicalContentV3 left.signable = some canonical)
    (two : canonicalContentV3 right.signable = some canonical) :
    SameMessage left right ↔ ReadAlike left right := by
  obtain ⟨first, rest, bound, written⟩ := canonical_items one
  obtain ⟨second, others, boundToo, writtenToo⟩ := canonical_items two
  have items := array_reread (written.symm.trans writtenToo)
  simp only [signedItems, cons_append, Json.rereadItems, List.cons.injEq] at items
  obtain ⟨-, type, roomCode, id, senderId, lamport, content, reactionTo, reactionEmoji, reactionOp,
    quoted, files, -⟩ := items
  have places := bound_files_iff bound boundToo files
  constructor
  · intro same
    exact ⟨Or.inr same.lamport, places.mp same.files⟩
  · intro alike
    have number : left.lamport.value = right.lamport.value := by
      rcases alike.lamport with finite | same
      · exact Json.reread_same_value finite lamport
      · exact same
    exact ⟨reread_optional type, reread_optional roomCode, Json.string.inj id,
      Json.string.inj senderId, number, Json.string.inj content, reread_optional reactionTo,
      reread_optional reactionEmoji, reread_optional reactionOp, reread_optional quoted,
      places.mpr alike.files⟩

def sampleFile (mimeType filename : Text) : FileEntry where
  encryption := .absent
  filename := filename
  mimeType := mimeType
  size := .finite false 5 0
  infoHash := text "c0ffee"
  width := .absent
  height := .absent

def sampleMessage (file : FileEntry) : SignableMessage where
  type := .some (text "file")
  roomCode := .some (text "room")
  id := text "m1"
  senderId := text "did:key:z6Mk"
  lamport := .finite false 7 0
  content := []
  reactionTo := .absent
  reactionEmoji := .absent
  reactionOp := .absent
  replyTo := .null
  files := .some [file]
  timestamp := .absent

theorem sample_form :
    SameMessage (sampleMessage (sampleFile (text "text/plain") (text "a.txt")))
        (sampleMessage (sampleFile (text "text/plain") (text "a.txt"))) ↔
      ReadAlike (sampleMessage (sampleFile (text "text/plain") (text "a.txt")))
        (sampleMessage (sampleFile (text "text/plain") (text "a.txt"))) := by
  have written : (canonicalContentV3 (sampleMessage
      (sampleFile (text "text/plain") (text "a.txt"))).signable).isSome = true := by
    decide +kernel
  obtain ⟨canonical, form⟩ := isSome_iff_exists.mp written
  exact same_form_same_message_iff form form

/-- A colon moved from the type of a file to its name is signed alike. -/
theorem moved_colon_signed_alike :
    ∃ canonical, canonicalContentV3
        (sampleMessage (sampleFile (text "text/plain") (text "a:b.exe"))).signable =
          some canonical ∧
      canonicalContentV3
        (sampleMessage (sampleFile (text "text/plain:a") (text "b.exe"))).signable =
          some canonical ∧
      ¬SameMessage (sampleMessage (sampleFile (text "text/plain") (text "a:b.exe")))
        (sampleMessage (sampleFile (text "text/plain:a") (text "b.exe"))) := by
  have written : (canonicalContentV3 (sampleMessage
      (sampleFile (text "text/plain") (text "a:b.exe"))).signable).isSome = true := by
    decide +kernel
  have same : canonicalContentV3
      (sampleMessage (sampleFile (text "text/plain:a") (text "b.exe"))).signable =
        canonicalContentV3
          (sampleMessage (sampleFile (text "text/plain") (text "a:b.exe"))).signable := by
    decide +kernel
  obtain ⟨canonical, form⟩ := isSome_iff_exists.mp written
  refine ⟨canonical, form, same.trans form, ?_⟩
  intro equal
  have files : List.Forall₂ SameFile [sampleFile (text "text/plain") (text "a:b.exe")]
      [sampleFile (text "text/plain:a") (text "b.exe")] := rel_some_some.mp equal.files
  have file := (forall₂_cons.mp files).1
  exact absurd file.filename (by decide +kernel)

end Canonical

end AwfulChat.SignedForm
