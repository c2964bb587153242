/-
# ParquetStruct.Parquet.File — the schema of a Parquet file.

A Parquet file ends in a footer: metadata, their length in four bytes, and a four-byte mark.  This
module checks the mark and the length against the size of a file.  Decoding the metadata is not its
matter: a file whose metadata are understood is known here by the schema they were written with.
-/
import ParquetStruct.Parquet.Metadata
import ParquetStruct.Store.Error

namespace ParquetStruct.Parquet

open Store

/-! ## Files -/

/-- What a file holds. -/
inductive Content where
  | bytes (content : ByteArray)
  /-- A Parquet file without rows, written with the given schema. -/
  | table (schema : SchemaType)
  deriving Inhabited

/-- The bytes of a file. -/
def Content.data : Content → ByteArray
  | .bytes content => content
  | .table schema => ⟨(encodeFile schema).toArray⟩

/-! ## Footers -/

/-- Why the footer of a file cannot be read. -/
inductive FooterFault where
  /-- The file has fewer bytes than its footer needs. -/
  | tooSmall (size need : Nat)
  /-- The file does not end in the mark of Parquet files. -/
  | corrupt
  /-- The metadata end too early. -/
  | unexpectedEnd
  /-- The metadata are encrypted. -/
  | encrypted
  /-- The metadata are not understood. -/
  | undecodable
  /-- The bytes of the footer cannot be read. -/
  | unreadable (e : SystemError)
  deriving DecidableEq, Repr, Inhabited

/-- The wording of a footer fault. -/
def FooterFault.message : FooterFault → String
  | .tooSmall size need =>
    "EOF: Parquet file too small. Size is " ++ toString size ++ " but need " ++ toString need
  | .corrupt => "Parquet error: Invalid Parquet file. Corrupt footer"
  | .unexpectedEnd => "EOF: Unexpected EOF"
  | .encrypted =>
    "Parquet error: Parquet file has an encrypted footer but the encryption feature is disabled"
  | .undecodable => "Parquet error: Could not parse metadata"
  | .unreadable e => "External: " ++ e.message

/-- The number of bytes that every footer has at its end. -/
def trailerSize : Nat := 8

/-- The mark at the end of a Parquet file with encrypted metadata, `PARE`. -/
def encryptedMark : List UInt8 := [0x50, 0x41, 0x52, 0x45]

/-- The number that bytes denote, lowest first. -/
def ofLittleEndian (bytes : List UInt8) : Nat :=
  bytes.foldr (fun b n => b.toNat + 256 * n) 0

/-- What is wrong with the footer of a file that is given by its bytes. -/
def footerFault (content : ByteArray) : FooterFault :=
  let size := content.size
  -- Of a file shorter than this, `trailer` is the whole; it is refused for its size alone.
  let trailer := content.toList.drop (size - trailerSize)
  let length := ofLittleEndian (trailer.take 4)
  let found := trailer.drop 4
  if size < trailerSize then .tooSmall size trailerSize
  else if found ≠ mark ∧ found ≠ encryptedMark then .corrupt
  else if size < length + trailerSize then .tooSmall size (length + trailerSize)
  else if found = encryptedMark then .encrypted
  else if length = 0 then .unexpectedEnd
  else .undecodable

/-- The schema of a file. -/
def schema : Content → Except FooterFault SchemaType
  | .bytes content => .error (footerFault content)
  | .table schema => .ok schema.stored

/-! ## Reading the schema tree of a file -/

/-- Why no schema tree can be read from a path. -/
inductive ReadError where
  | openFailed (path : String) (e : SystemError)
  | footer (path : String) (fault : FooterFault)
  deriving DecidableEq, Repr, Inhabited

/-- The wording of a read error. -/
def ReadError.message : ReadError → String
  | .openFailed path e => "failed to open parquet file '" ++ path ++ "': " ++ e.message
  | .footer path fault => "failed to read parquet footer of '" ++ path ++ "': " ++ fault.message

/-- The schema tree of the file at a path, given what reading that path gives.  A directory can be
opened, and fails when its footer is read. -/
def readTree (path : String) (found : Except SystemError Content) : Except ReadError Node :=
  match found with
  | .error e =>
    .error (if e = .isADirectory then .footer path (.unreadable e) else .openFailed path e)
  | .ok content =>
    match schema content with
    | .error fault => .error (.footer path fault)
    | .ok schema => .ok schema.tree

end ParquetStruct.Parquet
