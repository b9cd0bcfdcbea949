import AwfulChat.Library.Base64
import AwfulChat.Library.Json

/-!
# Encrypted file descriptors

`file-descriptor.ts` and the descriptor check of `file-crypto.ts`, over the JSON
value that arrived: nothing on the wire has been checked before them. `none` is
a throw, of the check itself or of a property read on null.
-/

namespace AwfulChat.RoomSecurity

open Library

set_option autoImplicit false

def CHUNK : Nat := 1024 * 1024

def MAX_SIZE : Nat := 1024 ^ 4

/-- `value?.name`; the names the source reads are not on any builtin prototype. -/
def property (value : Option Json) (name : Text) : Option Json :=
  match value with
  | some (.object fields) => (fields.find? fun field => field.1 = name).map Prod.snd
  | _ => none

def stringProperty (input : Option Json) (name : Text) : Option Text :=
  match property input name with
  | some (.string value) => some value
  | _ => none

/-- `value.name`, which throws on null and undefined. -/
def strictProperty (value : Option Json) (name : Text) : Option (Option Json) :=
  match value with
  | none => none
  | some .null => none
  | some value => some (property (some value) name)

def truthy : Option Json → Bool
  | none => false
  | some .null => false
  | some (.bool value) => value
  | some (.number (.finite _ coefficient _)) => coefficient ≠ 0
  | some (.number (.infinite _)) => true
  | some (.number .nan) => false
  | some (.string value) => value ≠ []
  | some (.array _) => true
  | some (.object _) => true

/-- An undefined item of an array is written as null. -/
def orNull (value : Option Json) : Json := value.getD .null

/-- The integer that a number is, when it is one. -/
def integer : JsNumber → Option Int
  | .finite negative coefficient exponent =>
    if 0 ≤ exponent then
      some (if negative then -(coefficient * 10 ^ exponent.toNat : Int)
        else coefficient * 10 ^ exponent.toNat)
    else if coefficient % 10 ^ (-exponent).toNat = 0 then
      some (if negative then -((coefficient / 10 ^ (-exponent).toNat : Nat) : Int)
        else ((coefficient / 10 ^ (-exponent).toNat : Nat) : Int))
    else none
  | .infinite _ => none
  | .nan => none

def MAX_SAFE_INTEGER : Int := 2 ^ 53 - 1

/-- `Number.isSafeInteger`, with the integer. -/
def safeInteger : Option Json → Option Int
  | some (.number value) =>
    (integer value).filter fun value => -MAX_SAFE_INTEGER ≤ value ∧ value ≤ MAX_SAFE_INTEGER
  | _ => none

/-- The shape check and the round trip through `base64urlnopad`. -/
def canonicalBase64 (length : Nat) : Option Json → Bool
  | some (.string value) =>
    value.length = length && value.all (fun unit => (Base64.letterValue unit).isSome) &&
      (Base64.decode value).map Base64.encode = some value
  | _ => false

def validateFileEncryption (descriptor : Option Json) : Bool :=
  truthy descriptor &&
    safeInteger (property descriptor (text "version")) = some 2 &&
    safeInteger (property descriptor (text "chunkSize")) = some (CHUNK : Int) &&
    (match safeInteger (property descriptor (text "size")) with
      | some size => 0 ≤ size && size ≤ MAX_SIZE
      | none => false) &&
    canonicalBase64 43 (property descriptor (text "key")) &&
    canonicalBase64 22 (property descriptor (text "id"))

/-- The throwing half of `encryptedFileSize`: a descriptor that is there has to
be valid and to name the file's own size. -/
def encryptedFileSizeAllowed (file : Option Json) : Bool :=
  let encryption := property file (text "encryption")
  validateFileEncryption encryption &&
    safeInteger (property file (text "size")) = safeInteger (property encryption (text "size"))

mutual

/-- `String(value)`; an object that brings its own `toString` makes it throw. -/
def toText : Json → Option Text
  | .null => some (text "null")
  | .bool value => some (if value then text "true" else text "false")
  | .number value => some (Json.numberText value)
  | .string value => some value
  | .array items => joinText items
  | .object fields =>
    if fields.any (fun field => field.1 = text "toString") then none
    else some (text "[object Object]")

/-- `Array.prototype.join` with commas: null items leave nothing between them. -/
def joinText : List Json → Option Text
  | [] => some []
  | [.null] => some []
  | [item] => toText item
  | .null :: next :: rest => do
      let others ← joinText (next :: rest)
      some (44 :: others)
  | item :: next :: rest => do
      let first ← toText item
      let others ← joinText (next :: rest)
      some (first ++ 44 :: others)

end

/-- A value inside a template literal. -/
def templateText : Option Json → Option Text
  | none => some (text "undefined")
  | some value => toText value

def fileSignatureBinding (file : Json) : Option Text := do
  let infoHash ← strictProperty (some file) (text "infoHash")
  let size := property (some file) (text "size")
  let mimeType := property (some file) (text "mimeType")
  let filename := property (some file) (text "filename")
  let infoHashText ← templateText infoHash
  let sizeText ← templateText size
  let mimeTypeText ← templateText mimeType
  let filenameText ← templateText filename
  let encryption := property (some file) (text "encryption")
  if truthy encryption then
    if encryptedFileSizeAllowed (some file) then
      some (Json.stringify (.array [.string (text "awful:file-descriptor:v2"), orNull infoHash,
        orNull size, orNull mimeType, orNull filename,
        orNull (property encryption (text "version")), orNull (property encryption (text "key")),
        orNull (property encryption (text "id")), orNull (property encryption (text "size")),
        orNull (property encryption (text "chunkSize")), orNull (property (some file) (text "width")),
        orNull (property (some file) (text "height"))]))
    else none
  else some (infoHashText ++ 58 :: sizeText ++ 58 :: mimeTypeText ++ 58 :: filenameText)

end AwfulChat.RoomSecurity
