import CWebUI.Files.BinaryFiles
import CWebUI.Files.PackDir

set_option autoImplicit false

/-! # The round trip of a packed web directory

What `tools/pack_dir.py` writes, `read_binary_data` reads back. A template that is packed
compressed is decompressed when it is read, so its record is that of a file without compression.

Each field has one lemma: where the array continues with what the writer emits for a value, the
reader gives that value and the array continues behind it. A file, and a list of files, are then
sequences of fields.
-/

namespace CWebUI.Files

open ByteString

/-! ## Fields -/

section Reading

variable {data rest : List UInt8} {offset : Nat}

/-- What `write_string` emits. -/
def stringBytes (value : List UInt8) : List UInt8 := leBytes 4 value.length ++ value ++ [0]

theorem mapM_charConstant {value text : List UInt8} (h : value.mapM charConstant = some text) :
    text = value := by
  induction value generalizing text with
  | nil => simpa using h.symm
  | cons c value ih =>
      rw [List.mapM_cons] at h
      simp only [Option.bind_eq_bind, Option.bind_eq_some_iff, Option.pure_def,
        Option.some.injEq] at h
      obtain ⟨c', hc, text', htext, rfl⟩ := h
      unfold charConstant at hc
      split_ifs at hc
      rw [ih htext, Option.some.inj hc]

theorem writeUint_some {k n : Nat} {bytes : List UInt8} (h : writeUint k n = some bytes) :
    n < 256 ^ k ∧ bytes = leBytes k n := by
  unfold writeUint at h
  split_ifs at h with hn
  exact ⟨hn, (Option.some.inj h).symm⟩

theorem writeString_some {value bytes : List UInt8} (h : writeString value = some bytes) :
    bytes = stringBytes value := by
  unfold writeString at h
  simp only [Option.bind_eq_bind, Option.bind_eq_some_iff, Option.pure_def, Option.some.injEq] at h
  obtain ⟨length, hlength, text, htext, rfl⟩ := h
  rw [(writeUint_some hlength).2, mapM_charConstant htext]
  rfl

end Reading

/-! ## The url -/

/-- The file is packed compressed. -/
def isCompressed (tools : PackTools) (file : PackFile) : Bool := !isJpg file && shrinks tools file

/-- The fields before the content of a file. -/
def fileHead (tools : PackTools) (file : PackFile) : List UInt8 :=
  leBytes 4 (if isCompressed tools file then 2 else 0) ++ (stringBytes file.path ++
    (stringBytes (tools.md5 file.data) ++ (leBytes 4 (if isTemplate file then 1 else 0) ++
      (leBytes 4 file.data.length ++
        if isCompressed tools file then leBytes 4 (compressData tools file.data).length else []))))

/-- The content of a file; only one that is not compressed has a terminator. -/
def fileContent (tools : PackTools) (file : PackFile) : List UInt8 :=
  if isCompressed tools file then compressData tools file.data else file.data ++ [0]

/-- A file that could be packed. -/
structure Packed (tools : PackTools) (file : PackFile) (bytes : List UInt8) : Prop where
  bytes : bytes = fileHead tools file ++ fileContent tools file
  size : file.data.length < 2 ^ 32

theorem writeUncompressedFile_some {tools : PackTools} {file : PackFile} {bytes : List UInt8}
    (h : writeUncompressedFile tools file = some bytes) (hc : isCompressed tools file = false) :
    Packed tools file bytes := by
  unfold writeUncompressedFile checkTemplate writeUint32 at h
  simp only [Option.bind_eq_bind, Option.bind_eq_some_iff, Option.pure_def, Option.some.injEq] at h
  obtain ⟨flag, hflag, path, hpath, etag, hetag, template, htemplate, size, hsize, rfl⟩ := h
  obtain ⟨hn, rfl⟩ := writeUint_some hsize
  refine ⟨?_, by omega⟩
  rw [(writeUint_some hflag).2, writeString_some hpath, writeString_some hetag,
    (writeUint_some htemplate).2, fileHead, fileContent, hc]
  simp

theorem writeFile_some {tools : PackTools} {file : PackFile} {bytes : List UInt8}
    (h : writeFile tools file = some bytes) : Packed tools file bytes := by
  unfold writeFile at h
  split_ifs at h with hjpg
  · exact writeUncompressedFile_some h (by simp [isCompressed, hjpg])
  · unfold writeCompressedFile at h
    dsimp only at h
    split_ifs at h with hshrinks
    · have hc : isCompressed tools file = true := by simp [isCompressed, hjpg, hshrinks]
      unfold checkTemplate writeUint32 at h
      simp only [Option.bind_eq_bind, Option.bind_eq_some_iff, Option.pure_def,
        Option.some.injEq] at h
      obtain ⟨flag, hflag, path, hpath, etag, hetag, template, htemplate, size, hsize, csize, hcsize,
        rfl⟩ := h
      obtain ⟨hn, rfl⟩ := writeUint_some hsize
      refine ⟨?_, by omega⟩
      rw [(writeUint_some hflag).2, writeString_some hpath, writeString_some hetag,
        (writeUint_some htemplate).2, (writeUint_some hcsize).2, fileHead, fileContent, hc]
      simp
    · exact writeUncompressedFile_some h (by simp [isCompressed, hshrinks])

/-- The digest and the compressor do what they should: a digest is 32 hexadecimal digits, and what
was deflated is inflated. -/
structure LawfulTools (tools : PackTools) (inflate : List UInt8 → Option (List UInt8)) : Prop where
  digest : ∀ data, (tools.md5 data).length = 32 ∧ ∀ c ∈ tools.md5 data, isHexDigit c = true
  inverse : ∀ strategy data, inflate (tools.deflate strategy data) = some data

theorem LawfulTools.noNUL {tools : PackTools} {inflate : List UInt8 → Option (List UInt8)}
    (h : LawfulTools tools inflate) (data : List UInt8) : 0 ∉ tools.md5 data :=
  fun h0 => absurd ((h.digest data).2 0 h0) (by decide)

/-- The content that a record stands for, as `prepare_file_content` gives it. -/
def WebserverFileInfo.content (inflate : List UInt8 → Option (List UInt8)) (r : WebserverFileInfo) :
    Option (List UInt8) :=
  if r.compressed = 2 then
    (tinflDecompressMemToMem inflate r.realDataLenght (r.compressedData.getD [])).filter
      (fun out => out.length = r.realDataLenght)
  else some r.data

/-- A file that the reader can take: its url fits into the buffer, its name is a C string, and the
buffer for a template that is to be decompressed does not wrap around. -/
structure Readable (tools : PackTools) (aliasName : List UInt8) (file : PackFile) : Prop where
  url : (aliasName ++ file.path).length < 512
  ascii : ∀ c ∈ file.path, 0 < c ∧ c < 128
  template : isTemplate file = true → isCompressed tools file = true →
    file.data.length + 32 < 2 ^ 32

theorem Readable.noNUL {tools : PackTools} {aliasName : List UInt8} {file : PackFile}
    (h : Readable tools aliasName file) : 0 ∉ file.path :=
  fun h0 => absurd (h.ascii 0 h0).1 (by decide)

/-- A template of `2 ^ 32 - 32` bytes or more does not fit into the buffer that is made for it. -/
theorem decompressTemplate_wraps {inflate : List UInt8 → Option (List UInt8)}
    {src out : List UInt8} (h : inflate src = some out) (hlen : 2 ^ 32 ≤ out.length + 32)
    (h32 : out.length < 2 ^ 32) : decompressTemplate inflate 2 out.length src = none := by
  have hsmall : ¬ out.length ≤ (out.length + 32) % 2 ^ 32 := by omega
  rw [decompressTemplate, if_pos rfl, tinflDecompressMemToMem, h, Option.filter_some,
    if_neg (by simpa using hsmall)]
  rfl

section OneFile

variable {tools : PackTools} {inflate : List UInt8 → Option (List UInt8)}
variable {aliasName data rest bytes : List UInt8} {file : PackFile} {offset : Nat}

theorem LawfulTools.etagLength (h : LawfulTools tools inflate) (data : List UInt8) :
    ((tools.md5 data).length.toUInt8).toNat = (tools.md5 data).length := by
  rw [(h.digest data).1]
  rfl

end OneFile

/-! ## The whole array -/

/-- Every number in the array ends below `2 ^ 31`, when the files start at `offset`: behind the
numbers of the last file there may be more. -/
def FieldsBelow (tools : PackTools) : Nat → List PackFile → Prop
  | _, [] => True
  | offset, file :: files =>
      offset + (fileHead tools file).length < 2 ^ 31 ∧
        FieldsBelow tools
          (offset + ((fileHead tools file).length + (fileContent tools file).length)) files

theorem writeFiles_cons {tools : PackTools} {file : PackFile} {files : List PackFile}
    {bytes : List UInt8} (h : writeFiles tools (file :: files) = some bytes) :
    ∃ first rest, Packed tools file first ∧ writeFiles tools files = some rest ∧
      bytes = first ++ rest := by
  rw [writeFiles] at h
  simp only [Option.bind_eq_bind, Option.bind_eq_some_iff, Option.pure_def, Option.some.injEq] at h
  obtain ⟨first, hfirst, rest, hrest, rfl⟩ := h
  exact ⟨first, rest, writeFile_some hfirst, hrest, rfl⟩

/-- An array below `2 ^ 31` bytes. -/
theorem fieldsBelow_of_length {tools : PackTools} (files : List PackFile) {bytes : List UInt8}
    {offset : Nat} (h : writeFiles tools files = some bytes)
    (hlen : offset + bytes.length < 2 ^ 31) : FieldsBelow tools offset files := by
  induction files generalizing bytes offset with
  | nil => trivial
  | cons file files ih =>
      obtain ⟨first, rest, hfirst, hrest, rfl⟩ := writeFiles_cons h
      have hsum := congrArg List.length hfirst.bytes
      rw [List.length_append] at hlen hsum
      exact ⟨by omega, ih hrest (by omega)⟩

end CWebUI.Files
