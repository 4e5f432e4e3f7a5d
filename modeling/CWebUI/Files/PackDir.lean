import CWebUI.Basic.CString
import CWebUI.Basic.LittleEndian

set_option autoImplicit false

/-! # Packing a web directory

`tools/pack_dir.py` writes the files of a directory as the initialiser of a C array, number by
number and character by character. Here the result is the bytes of that array. There is none when
the tool stops with an exception, because a number does not fit into its field, or when the C
source does not compile, because a character cannot stand between single quotes.

The digest of a file and the compressor are parameters. The tool runs on a 64-bit little-endian
host, where `struct.pack('L', ..)` has eight bytes.
-/

namespace CWebUI.Files

open ByteString

/-- The strategies that the tool tries. -/
inductive Strategy where
  | default
  | filtered
  | huffmanOnly
  deriving DecidableEq, Repr

/-- `hashlib.md5(..).hexdigest().upper()`, and raw deflate data of level 9. -/
structure PackTools where
  md5 : List UInt8 → List UInt8
  deflate : Strategy → List UInt8 → List UInt8

/-- A file of the directory: its path behind the directory's name, which starts with a slash, and
its bytes. -/
structure PackFile where
  path : List UInt8
  data : List UInt8
  deriving DecidableEq, Repr

/-! ## Fields -/

/-- `write_uint32` and `write_uint64`: `struct.pack` refuses a number that does not fit. -/
def writeUint (k : Nat) (value : Nat) : Option (List UInt8) :=
  if value < 256 ^ k then some (leBytes k value) else none

/-- `write_uint32`. -/
def writeUint32 (value : Nat) : Option (List UInt8) := writeUint 4 value

/-- A character between single quotes in a C source. A line feed, a quote and a backslash do not
give a character constant. -/
def charConstant (c : UInt8) : Option UInt8 :=
  if c = lf ∨ c = 39 ∨ c = 92 then none else some c

/-- `write_string`. -/
def writeString (value : List UInt8) : Option (List UInt8) := do
  let length ← writeUint32 value.length
  let text ← value.mapM charConstant
  return length ++ text ++ [0]

/-! ## Files -/

/-- `TEMPLATE_V1`. -/
def templateV1 : List UInt8 := ascii "TEMPLATE_V1"

/-- The test of `check_template`, which looks at the first 20 bytes and at the name. -/
def isTemplate (file : PackFile) : Bool :=
  templateV1.isPrefixOf (file.data.take 20) || (ascii ".inc").isSuffixOf file.path

/-- `check_template`. -/
def checkTemplate (file : PackFile) : Option (List UInt8) :=
  writeUint32 (if isTemplate file then 1 else 0)

/-- `write_uncompressed_file`. -/
def writeUncompressedFile (tools : PackTools) (file : PackFile) : Option (List UInt8) := do
  let flag ← writeUint32 0
  let path ← writeString file.path
  let etag ← writeString (tools.md5 file.data)
  let template ← checkTemplate file
  let size ← writeUint32 file.data.length
  return flag ++ path ++ etag ++ template ++ size ++ file.data ++ [0]

/-- The smaller of the best result so far and the result of a strategy. -/
def smaller (smallest data : List UInt8) : List UInt8 :=
  if data.length < smallest.length then data else smallest

/-- `compress_data`: the shortest of the data itself and of the results of the strategies. -/
def compressData (tools : PackTools) (data : List UInt8) : List UInt8 :=
  [Strategy.default, .filtered, .huffmanOnly].foldl
    (fun smallest strategy => smaller smallest (tools.deflate strategy data)) data

/-- The file becomes shorter by compression. -/
def shrinks (tools : PackTools) (file : PackFile) : Bool :=
  (compressData tools file.data).length < file.data.length

/-- `write_compressed_file`. -/
def writeCompressedFile (tools : PackTools) (file : PackFile) : Option (List UInt8) := do
  let compressed := compressData tools file.data
  if shrinks tools file then
    let flag ← writeUint32 2
    let path ← writeString file.path
    let etag ← writeString (tools.md5 file.data)
    let template ← checkTemplate file
    let size ← writeUint32 file.data.length
    let compressedSize ← writeUint32 compressed.length
    return flag ++ path ++ etag ++ template ++ size ++ compressedSize ++ compressed
  else writeUncompressedFile tools file

/-- A picture, which is not compressed again. -/
def isJpg (file : PackFile) : Bool := (ascii ".jpg").isSuffixOf (file.path.map toLower)

/-- A file in the loop of `gen_c_file`. -/
def writeFile (tools : PackTools) (file : PackFile) : Option (List UInt8) :=
  if isJpg file then writeUncompressedFile tools file else writeCompressedFile tools file

/-- The files in the loop of `gen_c_file`. -/
def writeFiles (tools : PackTools) : List PackFile → Option (List UInt8)
  | [] => some []
  | file :: files => do
      let first ← writeFile tools file
      let rest ← writeFiles tools files
      return first ++ rest

end CWebUI.Files
