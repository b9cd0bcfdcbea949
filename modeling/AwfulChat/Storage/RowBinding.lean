import AwfulChat.Library.OrderedMap
import AwfulChat.RoomSecurity.FileDescriptor

/-!
# Binding a sealed row to its clear fields

`sealRow`, `rowAad` and `inspectRow` of `storage-crypto.ts`. A row is an object of
fields beside its blobs; `_enc` and `_encBytes` are kept apart, and no spec lists
them. Encryption, the keyed hash and `JSON.parse` are parameters of the model and
nothing is assumed of them: what is shown below follows from the texts that the
binding is made of.
-/

namespace AwfulChat.StorageCrypto

open Library RoomSecurity Library.OrderedMap List Option

set_option autoImplicit false

inductive Value
  | json (value : Json)
  | buffer (bytes : Bytes)

abbrev Fields := OrderedMap Text Value

/-- `String(value)`; none is a throw. -/
def Value.shown : Value → Option Text
  | .json value => toText value
  | .buffer _ => some (text "[object ArrayBuffer]")

/-- What `JSON.stringify` makes of a value; a buffer has no own fields. -/
def Value.stored : Value → Json
  | .json value => value
  | .buffer _ => .object []

def AAD_VERSION : Nat := 3

structure StoreCryptoSpec where
  clear : List Text
  blind : List Text
  bytes : List Text
  storeName : Text
  key : Text
  unreserved : ∀ name ∈ key :: clear, name ≠ text "_enc" ∧ name ≠ text "_encBytes"

/-- The key of an unlocked identity, as the functions it makes available. -/
structure Crypto where
  Cipher : Type
  encrypt : Bytes → Bytes → Bytes → Cipher
  decrypt : Bytes → Bytes → Cipher → Option Bytes
  mac : Bytes → Bytes
  parse : Bytes → Option (OrderedMap Text Json)

structure EncBlob (crypto : Crypto) where
  iv : Bytes
  ct : crypto.Cipher
  v : Option Nat

structure StoredRow (crypto : Crypto) where
  fields : Fields
  enc : Option (EncBlob crypto)
  encBytes : List (Text × EncBlob crypto)

def BLIND_PREFIX : Text := text "b1:"

def blindValue (crypto : Crypto) (value : Text) : Text :=
  if BLIND_PREFIX.isPrefixOf value then value
  else BLIND_PREFIX ++ Base64.encode (crypto.mac (Text.encodeUtf8 value))

/-- A field as the row has it, when it is neither undefined nor null. -/
def present (fields : Fields) (name : Text) : Option Value :=
  match fields.get name with
  | some (.json .null) => none
  | found => found

def clearText (fields : Fields) : List Text → Option Text
  | [] => some []
  | name :: rest =>
    match present fields name with
    | none => clearText fields rest
    | some value => do
        let shown ← value.shown
        let others ← clearText fields rest
        some (32 :: name ++ 61 :: shown ++ others)

/-- Throws with `String`, and is undefined without a store name or a key value. -/
def rowAad (spec : StoreCryptoSpec) (fields : Fields) (field : Option Text) (version : Nat) :
    Option (Option Bytes) :=
  if spec.storeName = [] ∨ spec.key = [] then some none
  else match present fields spec.key with
    | none => some none
    | some key => do
        let shown ← key.shown
        let named := match field with
          | none => []
          | some field => if field = [] then [] else 32 :: field
        let clear ← if version = 3 then clearText fields spec.clear else some []
        some (some (Text.encodeUtf8 (spec.storeName ++ 32 :: shown ++ named ++ clear)))

def encryptBlob (crypto : Crypto) (iv data : Bytes) : Option Bytes → EncBlob crypto
  | some aad => { iv := iv, ct := crypto.encrypt iv aad data, v := some AAD_VERSION }
  | none => { iv := iv, ct := crypto.encrypt iv [] data, v := none }

def decryptBlob (crypto : Crypto) (spec : StoreCryptoSpec) (fields : Fields)
    (field : Option Text) (blob : EncBlob crypto) : Option Bytes :=
  match blob.v with
  | none => crypto.decrypt blob.iv [] blob.ct
  | some version =>
    if version = 0 then crypto.decrypt blob.iv [] blob.ct
    else do
      let aad ← rowAad spec fields field version
      crypto.decrypt blob.iv (aad.getD []) blob.ct

structure Parts where
  out : Fields
  rest : OrderedMap Text Json
  byteBufs : OrderedMap Text Bytes

local instance : LawfulBEq Text := inferInstance

def sortField (crypto : Crypto) (spec : StoreCryptoSpec) (parts : Parts) (field : Text × Value) :
    Option Parts :=
  if field.1 ∈ spec.clear then some { parts with out := parts.out.set field.1 field.2 }
  else if field.1 ∈ spec.blind then do
    let shown ← field.2.shown
    some { parts with
      out := parts.out.set field.1 (.json (.string (blindValue crypto shown)))
      rest := parts.rest.set field.1 field.2.stored }
  else if field.1 ∈ spec.bytes then
    match field.2 with
    | .buffer bytes => some { parts with byteBufs := parts.byteBufs.set field.1 bytes }
    | .json _ => none
  else some { parts with rest := parts.rest.set field.1 field.2.stored }

/-- `ivs` are the random IVs, the first for `_enc`. -/
def sealRow (crypto : Crypto) (spec : StoreCryptoSpec) (ivs : Nat → Bytes) (record : Fields) :
    Option (StoredRow crypto) := do
  let parts ← record.entries.foldlM (sortField crypto spec)
    { out := OrderedMap.empty, rest := OrderedMap.empty, byteBufs := OrderedMap.empty }
  let aad ← rowAad spec parts.out none AAD_VERSION
  let blobs ← parts.byteBufs.entries.zipIdx.mapM fun buffer => do
    let aad ← rowAad spec parts.out (some buffer.1.1) AAD_VERSION
    some (buffer.1.1, encryptBlob crypto (ivs (buffer.2 + 1)) buffer.1.2 aad)
  some
    { fields := parts.out
      enc := some (encryptBlob crypto (ivs 0)
        (Text.encodeUtf8 (Json.stringify (.object parts.rest.entries))) aad)
      encBytes := blobs }

/-- What is pending when a row is opened. -/
structure Session where
  plaintextImportDepth : Nat
  sweepPending : Bool

def openBytes (crypto : Crypto) (spec : StoreCryptoSpec) (fields : Fields) (out : Fields)
    (named : Text × EncBlob crypto) : Option Fields := do
  let bytes ← decryptBlob crypto spec fields (some named.1) named.2
  some (out.set named.1 (.buffer bytes))

def copyClear (fields : Fields) (out : Fields) (name : Text) : Fields :=
  match fields.get name with
  | some value => out.set name value
  | none => out

def openRow (crypto : Crypto) (session : Session) (spec : StoreCryptoSpec)
    (row : StoredRow crypto) : Option Fields :=
  match row.enc with
  | none =>
    if spec.storeName ≠ [] ∧ session.plaintextImportDepth = 0 ∧ session.sweepPending = false then
      none
    else some row.fields
  | some blob => do
      let plain ← decryptBlob crypto spec row.fields none blob
      let rest ← crypto.parse plain
      if rest.has (text "_enc") then none
      else
        let opened := OrderedMap.collect (rest.entries.map fun field => (field.1, Value.json field.2))
        row.encBytes.foldlM (openBytes crypto spec row.fields)
          (spec.clear.foldl (copyClear row.fields) opened)

/-- The row that a blob sits in has the values it had when the blob was sealed, for
whatever row the blob is put into, with whatever version marker. -/
def Bound (crypto : Crypto) (session : Session) (spec : StoreCryptoSpec) (row : StoredRow crypto) :
    Prop :=
  ∀ moved : StoredRow crypto,
    (moved.enc.map fun blob => (blob.iv, blob.ct)) = (row.enc.map fun blob => (blob.iv, blob.ct)) →
    (openRow crypto session spec moved).isSome = true →
    ∀ name ∈ spec.key :: (spec.clear ++ spec.blind), moved.fields.get name = row.fields.get name

/-- Another value that `String` writes as it writes the one given. -/
def relabel : Option Value → Value
  | some (.json (.string value)) => .json (.array [.string value])
  | some value => .json (.string (value.shown.getD []))
  | none => .json (.string [])

variable {spec : StoreCryptoSpec} {fields : Fields} {value : Value}

theorem present_of_get {name : Text}
    (found : present fields name = some value) : fields.get name = some value := by
  unfold present at found
  split at found
  · cases found
  · exact found

variable {crypto : Crypto} {shown : Text}

theorem shown_relabel (reads : value.shown = some shown) :
    (relabel (some value)).shown = some shown := by
  have spelled : Value.shown (.json (.string (value.shown.getD []))) = some shown := by
    rw [reads]
    rfl
  cases value with
  | buffer bytes => exact spelled
  | json value =>
    cases value with
    | string value => exact reads
    | null => exact spelled
    | bool value => exact spelled
    | number value => exact spelled
    | array items => exact spelled
    | object fields => exact spelled

theorem relabel_ne (value : Option Value) : some (relabel value) ≠ value := by
  match value with
  | none => simp
  | some (.buffer bytes) | some (.json .null) | some (.json (.bool value))
  | some (.json (.number value)) | some (.json (.string value)) | some (.json (.array items))
  | some (.json (.object fields)) => simp [relabel]

theorem present_relabel (fields : Fields) (name : Text) (value : Option Value) :
    present (fields.set name (relabel value)) name = some (relabel value) := by
  unfold present
  rw [get_set_self]
  match value with
  | none | some (.buffer bytes) | some (.json .null) | some (.json (.bool value))
  | some (.json (.number value)) | some (.json (.string value)) | some (.json (.array items))
  | some (.json (.object fields)) => rfl

theorem present_set_other {name other : Text} (apart : other ≠ name)
    (value : Value) : present (fields.set name value) other = present fields other := by
  unfold present
  rw [get_set_other _ _ _ _ apart]

theorem clear_text_relabel {key : Text} (found : present fields key = some value)
    (reads : value.shown = some shown) (names : List Text) :
    clearText (fields.set key (relabel (some value))) names = clearText fields names := by
  induction names with
  | nil => rfl
  | cons name rest ih =>
    by_cases same : name = key
    · subst same
      simp only [clearText, present_relabel, found, shown_relabel reads, reads, ih]
    · simp only [clearText, present_set_other same, ih]

theorem row_aad_relabel (found : present fields spec.key = some value)
    (reads : value.shown = some shown) (field : Option Text) (version : Nat) :
    rowAad spec (fields.set spec.key (relabel (some value))) field version =
      rowAad spec fields field version := by
  simp only [rowAad, present_relabel, found, shown_relabel reads, reads,
    clear_text_relabel found reads]

theorem seal_row_blob {ivs : Nat → Bytes} {record : Fields} {row : StoredRow crypto}
    (sealing : sealRow crypto spec ivs record = some row) :
    ∃ aad data, rowAad spec row.fields none AAD_VERSION = some aad ∧
      row.enc = some (encryptBlob crypto (ivs 0) data aad) := by
  unfold sealRow at sealing
  obtain ⟨parts, -, sealing⟩ := bind_eq_some_iff.mp sealing
  obtain ⟨aad, bound, sealing⟩ := bind_eq_some_iff.mp sealing
  obtain ⟨blobs, -, sealing⟩ := bind_eq_some_iff.mp sealing
  obtain rfl := Option.some.inj sealing
  exact ⟨aad, _, bound, rfl⟩

theorem opens_again {session : Session}
    {row : StoredRow crypto} {blob moved : EncBlob crypto}
    (held : row.enc = some blob) (opens : (openRow crypto session spec row).isSome = true)
    (same : decryptBlob crypto spec fields none moved =
      decryptBlob crypto spec row.fields none blob) :
    (openRow crypto session spec { fields := fields, enc := some moved, encBytes := [] }).isSome =
      true := by
  obtain ⟨value, opened⟩ := isSome_iff_exists.mp opens
  unfold openRow at opened
  rw [held] at opened
  obtain ⟨plain, decrypted, opened⟩ := bind_eq_some_iff.mp opened
  obtain ⟨rest, parsed, opened⟩ := bind_eq_some_iff.mp opened
  have single : rest.has (text "_enc") = false := by
    cases nested : rest.has (text "_enc") with
    | false => rfl
    | true =>
      rw [nested] at opened
      cases opened
  simp [openRow, same, decrypted, parsed, single]

theorem decrypt_bound {aad : Bytes} {version : Nat} (iv data : Bytes) (marked : version ≠ 0)
    (reads : rowAad spec fields none version = some (some aad)) :
    decryptBlob crypto spec fields none
        { iv := iv, ct := crypto.encrypt iv aad data, v := some version } =
      crypto.decrypt iv aad (crypto.encrypt iv aad data) := by
  simp only [decryptBlob, if_neg marked, reads, bind_eq_bind, bind_some,
    getD_some]

theorem decrypt_unbound {fields other : Fields} {iv data : Bytes} :
    decryptBlob crypto spec fields none (encryptBlob crypto iv data none) =
      decryptBlob crypto spec other none (encryptBlob crypto iv data none) := rfl

theorem row_aad_some {aad : Bytes} (reads : rowAad spec fields none AAD_VERSION = some (some aad)) :
    ∃ value shown, present fields spec.key = some value ∧ value.shown = some shown := by
  unfold rowAad at reads
  split at reads
  · cases reads
  · split at reads
    · cases reads
    · rename_i value found
      obtain ⟨shown, spelled, -⟩ := bind_eq_some_iff.mp reads
      exact ⟨value, shown, found, spelled⟩

theorem row_aad_longer_key {fields other : Fields} {shown tail : Text}
    (found : present fields spec.key = some value) (reads : value.shown = some shown)
    (clear : clearText fields spec.clear = some tail)
    (longer : other.get spec.key = some (.json (.string (shown ++ tail)))) :
    rowAad spec other none 2 = rowAad spec fields none AAD_VERSION := by
  have held : present other spec.key = some (.json (.string (shown ++ tail))) := by
    unfold present
    rw [longer]
  have spelled : Value.shown (.json (.string (shown ++ tail))) = some (shown ++ tail) := rfl
  simp only [rowAad, held, found, reads, clear, spelled, AAD_VERSION, bind_eq_bind,
    bind_some, show (2 : Nat) ≠ 3 by decide, if_false, if_true, append_nil,
    append_assoc, cons_append]

/-- No sealed row that opens is bound to its fields: its key may be put as another
type, and where it is bound to a key, the blob opens under marker 2 with any clear
fields at all, the bound ones being read as the end of the key. -/
theorem sealed_row_never_bound (crypto : Crypto) (session : Session) (spec : StoreCryptoSpec)
    (ivs : Nat → Bytes) (record : Fields) (row : StoredRow crypto)
    (sealing : sealRow crypto spec ivs record = some row)
    (opens : (openRow crypto session spec row).isSome = true) :
    ¬ Bound crypto session spec row ∧
    ∀ value shown tail, present row.fields spec.key = some value → value.shown = some shown →
      clearText row.fields spec.clear = some tail → ∀ fields : Fields,
      fields.get spec.key = some (.json (.string (shown ++ tail))) →
      (openRow crypto session spec
        { fields := fields
          enc := row.enc.map fun blob => { blob with v := some 2 }
          encBytes := [] }).isSome = true := by
  obtain ⟨aad, data, reads, held⟩ := seal_row_blob sealing
  constructor
  · intro bound
    have retyped : decryptBlob crypto spec
        (row.fields.set spec.key (relabel (row.fields.get spec.key))) none
          (encryptBlob crypto (ivs 0) data aad) =
        decryptBlob crypto spec row.fields none (encryptBlob crypto (ivs 0) data aad) := by
      cases aad with
      | none => exact decrypt_unbound
      | some aad =>
        obtain ⟨value, shown, found, spelled⟩ := row_aad_some reads
        rw [present_of_get found]
        simp only [encryptBlob, decryptBlob, row_aad_relabel found spelled]
    have changed := bound
      { fields := row.fields.set spec.key (relabel (row.fields.get spec.key))
        enc := some (encryptBlob crypto (ivs 0) data aad)
        encBytes := [] } (by rw [held]) (opens_again held opens retyped) spec.key (by simp)
    rw [get_set_self] at changed
    exact relabel_ne _ changed
  · intro value shown tail found spelled clear fields longer
    have same := row_aad_longer_key found spelled clear longer
    rw [held]
    apply opens_again held opens
    cases aad with
    | none =>
      have unbound : rowAad spec fields none 2 = some none := same.trans reads
      simp [encryptBlob, decryptBlob, unbound]
    | some aad =>
      have relabelled : rowAad spec fields none 2 = some (some aad) := same.trans reads
      exact (decrypt_bound (ivs 0) data (by decide) relabelled).trans
        (decrypt_bound (ivs 0) data (by decide) reads).symm

/-- AES-GCM as an ideal cipher: a blob opens to what was sealed under the same IV
and additional data. -/
def idealCrypto (rest : OrderedMap Text Json) : Crypto where
  Cipher := Bytes × Bytes × Bytes
  encrypt := fun iv aad data => (iv, aad, data)
  decrypt := fun iv aad blob => if blob.1 = iv ∧ blob.2.1 = aad then some blob.2.2 else none
  mac := fun value => value
  parse := fun bytes =>
    if bytes = Text.encodeUtf8 (Json.stringify (.object rest.entries)) then some rest else none

def MESSAGES : StoreCryptoSpec where
  clear := [text "id", text "lamport", text "type", text "status"]
  blind := [text "roomCode", text "senderId"]
  bytes := []
  storeName := text "messages"
  key := text "id"
  unreserved := by decide +kernel

def message (id : String) (lamport : Nat) : Fields :=
  OrderedMap.collect [(text "id", .json (.string (text id))),
    (text "lamport", .json (.number (.finite false lamport 0))),
    (text "type", .json (.string (text "text")))]

def hello : Fields := (message "m1" 7).set (text "content") (.json (.string (text "hello")))

def helloRest : OrderedMap Text Json :=
  OrderedMap.empty.set (text "content") (.string (text "hello"))

abbrev afterSweep : Session where
  plaintextImportDepth := 0
  sweepPending := false

theorem hello_row_never_bound :
    ∃ row, sealRow (idealCrypto helloRest) MESSAGES (fun _ => []) hello = some row ∧
      (openRow (idealCrypto helloRest) afterSweep MESSAGES row).isSome = true ∧
      ¬ Bound (idealCrypto helloRest) afterSweep MESSAGES row := by
  obtain ⟨row, sealing⟩ := isSome_iff_exists.mp (show
    (sealRow (idealCrypto helloRest) MESSAGES (fun _ => []) hello).isSome = true by decide +kernel)
  have opens : (openRow (idealCrypto helloRest) afterSweep MESSAGES row).isSome = true := by
    have whole : ((sealRow (idealCrypto helloRest) MESSAGES (fun _ => []) hello).bind
        (openRow (idealCrypto helloRest) afterSweep MESSAGES)).isSome = true := by decide +kernel
    rwa [sealing, bind_some] at whole
  exact ⟨row, sealing, opens,
    (sealed_row_never_bound _ _ _ _ _ row sealing opens).1⟩

/-- The message moved up from lamport 7 to 9000 under a longer id: with the marker
set to 2 the blob opens, and the tampered lamport is read back. -/
theorem message_moved_under_marker :
    ∃ row moved, sealRow (idealCrypto helloRest) MESSAGES (fun _ => []) hello = some row ∧
      moved.enc = row.enc.map (fun blob => { blob with v := some 2 }) ∧
      (row.fields.get (text "lamport")).bind Value.shown = some (text "7") ∧
      (moved.fields.get (text "lamport")).bind Value.shown = some (text "9000") ∧
      (openRow (idealCrypto helloRest) afterSweep MESSAGES moved).map (fun opened =>
        [text "id", text "lamport", text "content"].map fun name =>
          (opened.get name).bind Value.shown) =
        some [some (text "m1 id=m1 lamport=7 type=text"), some (text "9000"),
          some (text "hello")] := by
  obtain ⟨row, sealing⟩ := isSome_iff_exists.mp (show
    (sealRow (idealCrypto helloRest) MESSAGES (fun _ => []) hello).isSome = true by decide +kernel)
  have lamport : ((sealRow (idealCrypto helloRest) MESSAGES (fun _ => []) hello).bind fun row =>
      (row.fields.get (text "lamport")).bind Value.shown) = some (text "7") := by decide +kernel
  have opened : ((sealRow (idealCrypto helloRest) MESSAGES (fun _ => []) hello).bind fun row =>
      openRow (idealCrypto helloRest) afterSweep MESSAGES
        { fields := message "m1 id=m1 lamport=7 type=text" 9000
          enc := row.enc.map fun blob => { blob with v := some 2 }
          encBytes := [] }).map (fun opened =>
        [text "id", text "lamport", text "content"].map fun name =>
          (opened.get name).bind Value.shown) =
      some [some (text "m1 id=m1 lamport=7 type=text"), some (text "9000"),
        some (text "hello")] := by
    decide +kernel
  have raised : ((message "m1 id=m1 lamport=7 type=text" 9000).get (text "lamport")).bind
      Value.shown = some (text "9000") := by decide +kernel
  rw [sealing, bind_some] at lamport opened
  exact ⟨row, _, sealing, rfl, lamport, raised, opened⟩

end AwfulChat.StorageCrypto
