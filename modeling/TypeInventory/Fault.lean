import TypeInventory.Token

set_option relaxedAutoImplicit false
set_option autoImplicit false

/-!
# Faults

Everything that can stop the reading of a module or of a part of it. A fault is a cause; its
wording is given in one place, by `Fault.message` and the functions it uses.

## Main definitions

* `Malformation` — the ways in which a module can contradict its own format.
* `FileFault` — why an operation on the file system failed.
* `ImageFault` — why bytes are not an executable image.
* `Fault` — any of these, and the faults that are not particular to a format.
* `Fault.message` — what is shown for a fault.

## Main results

* `exists_ok_of_any` — a result that passes a test is no fault.
-/

namespace TypeInventory

/-- Types may be nested at most this deep, in signatures and in chains of enclosing types. -/
def nestingLimit : Nat := 50

/-! ## Malformed modules -/

/-- The ways in which a module can contradict its own format. -/
inductive Malformation where
  /-- The image has no optional header. -/
  | noOptionalHeader
  /-- The image has no runtime header directory. -/
  | noRuntimeDirectory
  /-- The runtime header directory is empty or too small. -/
  | noMetadata (address size : Nat)
  /-- A virtual address that does not fit 32 bits. -/
  | addressTooLarge (address : Nat)
  /-- A section whose end does not fit 32 bits. -/
  | sectionOverflow (address size : Nat)
  /-- A virtual address that lies in no section. -/
  | unmappedAddress (address : Nat)
  /-- A runtime header that declares another size than its own. -/
  | runtimeHeaderSize (found : Nat)
  /-- The runtime header gives no address for the metadata. -/
  | metadataAddressZero
  /-- The runtime header gives no size for the metadata. -/
  | metadataSizeZero
  /-- The runtime header gives an implausible size for the metadata. -/
  | metadataTooLarge (size : Nat)
  /-- The metadata do not start with their signature. -/
  | rootSignature (found : Nat)
  /-- The metadata root announces no stream. -/
  | noStreams
  /-- A stream whose end does not fit 32 bits. -/
  | streamOverflow (offset size : Nat)
  /-- There is no stream of tables. -/
  | noTablesStream
  /-- The heap of strings lacks its leading empty entry. -/
  | emptyStringHeap
  /-- The heap of blobs lacks its leading empty entry. -/
  | emptyBlobHeap
  /-- A string that is not terminated or not UTF-8. -/
  | unreadableString (index : Nat)
  /-- The stream of tables declares no table. -/
  | noTables
  /-- The first byte of a compressed integer announces no width. -/
  | compressedLead (byte : UInt8)
  /-- The tag of a compressed token selects no table. -/
  | compressedToken (value : Nat)
  /-- A method signature with an unknown calling convention. -/
  | callingConvention (byte : UInt8)
  /-- A field signature that does not start like one. -/
  | fieldHead (byte : UInt8)
  /-- An instantiation that does not go on with a class or a value type. -/
  | instantiationHead (byte : UInt8)
  /-- A byte that starts no type. -/
  | elementType (byte : UInt8)
  /-- A row of the table of fields that cannot be read. -/
  | missingField (row : Nat)
  /-- A row of the table of methods that cannot be read. -/
  | missingMethod (row : Nat)
  /-- A row of the table of type definitions that cannot be read. -/
  | missingTypeDef (row : Nat)
  /-- A row of the table of type references that cannot be read. -/
  | missingTypeRef (row : Nat)
  /-- A token of a type definition that cannot be read. -/
  | danglingTypeDef (token : Token)
  /-- A token of a constructed type that cannot be read. -/
  | danglingTypeSpec (token : Token)
  /-- An instantiation of something that is no named type. -/
  | instantiationOfNonType
  /-- An instantiation of a token that names neither a definition nor a reference. -/
  | instantiationOfToken (token : Token)
  /-- A token of a table that holds no types. -/
  | typeToken (token : Token)
deriving DecidableEq, Repr

/-- The wording of a malformation. -/
def Malformation.message : Malformation → String
  | noOptionalHeader => "File does not have an OptionalHeader"
  | noRuntimeDirectory => "File does not have a CLR runtime header directory"
  | noMetadata address size =>
    s!"File does not carry CLR metadata - rva {address}, size {size}"
  | addressTooLarge address => s!"RVA too large to fit in u32: {address}"
  | sectionOverflow address size =>
    s!"Section malformed, causing integer overflow - {address} + {size}"
  | unmappedAddress address => s!"RVA could not be converted to offset - {address}"
  | runtimeHeaderSize found => s!"Invalid CLR header size: expected 72, got {found}"
  | metadataAddressZero => "Metadata RVA cannot be zero"
  | metadataSizeZero => "Metadata size cannot be zero"
  | metadataTooLarge size => s!"Metadata size {size} exceeds reasonable limit (256MB)"
  | rootSignature found =>
    "CIL_HEADER_MAGIC does not match - 0x" ++ Text.upperHexPadded 8 found
  | noStreams => "Invalid stream count"
  | streamOverflow offset size =>
    s!"Stream offset and size cause integer overflow - {offset} + {size}"
  | noTablesStream => "Module has no tables stream"
  | emptyStringHeap => "Provided #Strings heap is empty"
  | emptyBlobHeap => "Provided #Blob heap is empty"
  | unreadableString index => s!"Invalid string at index - {index}"
  | noTables => "No valid rows in any of the tables"
  | compressedLead byte => s!"Invalid compressed uint - {byte}"
  | compressedToken value => s!"Invalid compressed token - {value}"
  | callingConvention byte => s!"SignatureMethod - invalid calling convention - {byte}"
  | fieldHead byte => s!"SignatureField - invalid start - {byte}"
  | instantiationHead byte =>
    s!"GENERICINST - Next byte is not TYPE_CLASS or TYPE_VALUE - {byte}"
  | elementType byte => s!"Unsupported ELEMENT_TYPE - {byte}"
  | missingField row => s!"Failed to resolve field - {row}"
  | missingMethod row => s!"Failed to resolve method - {row}"
  | missingTypeDef row => s!"Failed to resolve TypeDef - {row}"
  | missingTypeRef row => s!"Failed to resolve TypeRef - {row}"
  | danglingTypeDef token => s!"Failed to resolve TypeDef - {token}"
  | danglingTypeSpec token => s!"Failed to resolve TypeSpec - {token}"
  | instantiationOfNonType => "Generic instantiation over non-type"
  | instantiationOfToken token => s!"Generic instantiation over unsupported token - {token}"
  | typeToken token => s!"Unsupported type token - {token}"

/-! ## Files -/

/-- Why an operation on the file system failed. -/
inductive FileFault where
  /-- No entry has the given path. -/
  | notFound
  /-- Something with the given path exists already. -/
  | alreadyExists
  /-- A component of the path, other than the last, is no directory. -/
  | notADirectory
  /-- A directory stands where a file is needed. -/
  | isADirectory
  /-- A component of the path is longer than file names may be. -/
  | nameTooLong
  /-- The path is no path, for instance because it holds a zero byte. -/
  | invalidPath
  /-- Any other fault, with the words of the system. -/
  | other (description : String)
deriving DecidableEq, Repr

/-- The wording of a fault of the file system, with its number. -/
def FileFault.message : FileFault → String
  | notFound => "No such file or directory (os error 2)"
  | alreadyExists => "File exists (os error 17)"
  | notADirectory => "Not a directory (os error 20)"
  | isADirectory => "Is a directory (os error 21)"
  | nameTooLong => "File name too long (os error 36)"
  | invalidPath => "file name contained an unexpected NUL byte"
  | other description => description

/-! ## Images -/

/-- Why bytes are not an executable image. -/
inductive ImageFault where
  /-- The bytes end within the headers. -/
  | truncated
  /-- The bytes do not start with the signature of an image. -/
  | dosSignature (found : Nat)
  /-- The image headers lie within the first header. -/
  | headersPlace (found : Nat)
  /-- The record of the build has no start, or its entries are not whole. -/
  | buildRecord
  /-- The signature before the image headers is missing. -/
  | imageSignature
  /-- The optional header starts with an unknown number. -/
  | optionalHeaderMagic (found : Nat)
  /-- More data directories are declared than an image can have. -/
  | directoryCount (found : Nat)
  /-- More sections are declared than the image has room for. -/
  | sectionCount (found : Nat)
  /-- An address that lies in no section. -/
  | unmapped (address : Nat)
  /-- A section tells the place of its name by something that is no number. -/
  | sectionName
  /-- A text is not UTF-8. -/
  | text
  /-- What a directory leads to contradicts its format. The position is that of the directory. -/
  | directory (position : Nat)
deriving DecidableEq, Repr

/-- The wording of a fault of an image. -/
def ImageFault.message : ImageFault → String
  | truncated => "Malformed entity: image ends within its headers"
  | dosSignature found =>
    "Malformed entity: DOS header is malformed (signature 0x" ++ Text.hex found ++ ")"
  | headersPlace found => s!"Malformed entity: image headers at {found}"
  | buildRecord => "Malformed entity: record of the build is damaged"
  | imageSignature => "Malformed entity: image signature is missing"
  | optionalHeaderMagic found =>
    "Malformed entity: unknown optional header 0x" ++ Text.hex found
  | directoryCount found => s!"Malformed entity: too many data directories: {found}"
  | sectionCount found => s!"Malformed entity: too many sections: {found}"
  | unmapped address => "Malformed entity: cannot map address 0x" ++ Text.hex address
  | sectionName => "Malformed entity: place of the name of a section is no number"
  | text => "Malformed entity: text is not UTF-8"
  | directory position => s!"Malformed entity: data directory {position} is damaged"

/-! ## Faults -/

/-- Everything that can stop the reading of a module or of a part of it. -/
inductive Fault where
  /-- The given module is no file. -/
  | moduleNotFound (path : String)
  /-- The module contradicts its own format. -/
  | malformed (cause : Malformation)
  /-- A read past the end of the data. -/
  | outOfBounds
  /-- The module uses a feature that is not supported. -/
  | notSupported
  /-- There is nothing to read. -/
  | empty
  /-- An operation on the file system failed. -/
  | file (cause : FileFault)
  /-- The bytes are not an executable image. -/
  | image (cause : ImageFault)
  /-- Types are nested deeper than `nestingLimit`. -/
  | nesting
deriving DecidableEq, Repr

/-- What is shown for a fault. -/
def Fault.message : Fault → String
  | moduleNotFound path => s!"{path} not found"
  | malformed cause => "Malformed - " ++ cause.message
  | outOfBounds => "Out of Bound read would have occurred!"
  | notSupported => "This file type is not supported"
  | empty => "Provided input was empty"
  | file cause => cause.message
  | image cause => cause.message
  | nesting => s!"Reach the maximum recursion level allowed - {nestingLimit}"

instance : ToString Fault :=
  ⟨Fault.message⟩

/-- A result that passes a test is no fault. -/
theorem exists_ok_of_any {α : Type} {x : Except Fault α} {p : α → Bool}
    (h : x.toOption.any p = true) : ∃ a, x = .ok a ∧ p a = true := by
  cases x with
  | error e => cases h
  | ok a => exact ⟨a, rfl, h⟩

end TypeInventory
