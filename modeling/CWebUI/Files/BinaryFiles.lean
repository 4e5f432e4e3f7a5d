import CWebUI.Basic.CString
import CWebUI.Basic.LittleEndian

set_option autoImplicit false

/-! # Reading a packed web directory

`system_file_access_binary.c` reads the array that `tools/pack_dir.py` has written. The offset
into it is a 64-bit number, but `read_uint32` and `read_uint64` copy it to an `int`. An access
outside the array, or an `int` that overflows, is undefined and gives no result, and so does the
exit of the program when a template cannot be decompressed.

The decompressor is a parameter. The file type of a record, which follows from its url, and the
fields that are the same for all binary files are left out.
-/

namespace CWebUI.Files

open ByteString

/-! ## Fields -/

/-- `WebserverFileInfo`. -/
structure WebserverFileInfo where
  url : List UInt8
  filePath : List UInt8
  filePrefix : List UInt8
  etag : List UInt8
  etagLength : UInt8
  data : List UInt8
  dataLenght : Nat
  compressed : UInt8
  compressedData : Option (List UInt8) := none
  compressedDataLenght : Nat := 0
  realDataLenght : Nat := 0
  templateFile : Bool
  deriving DecidableEq, Repr

/-- `tinfl_decompress_mem_to_mem`: the data, if it fits into the buffer. -/
def tinflDecompressMemToMem (inflate : List UInt8 → Option (List UInt8)) (outBufLen : Nat)
    (src : List UInt8) : Option (List UInt8) :=
  (inflate src).filter (fun out => out.length ≤ outBufLen)

/-- The data of a template is decompressed once and for all. Only deflate is known, and
`real_size + 32` has 32 bits. -/
def decompressTemplate (inflate : List UInt8 → Option (List UInt8)) (compressed realSize : Nat)
    (src : List UInt8) : Option (List UInt8) :=
  if compressed = 2 then
    (tinflDecompressMemToMem inflate ((realSize + 32) % 2 ^ 32) src).filter
      (fun out => out.length = realSize)
  else if realSize = 0 then some [] else none

end CWebUI.Files
