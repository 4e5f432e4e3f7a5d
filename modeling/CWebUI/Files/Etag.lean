import Mathlib.Data.Nat.Log
import CWebUI.Basic.Bytes
import CWebUI.Basic.Checksums

set_option autoImplicit false

/-! # The ETag of a file

`generateEtag` (`system_file_access_utils.c`) in the build without SSL: the length of the file, its
CRC-32 and its Adler-32, in hexadecimal digits. The checksums are computed in static variables. A
file in memory goes through them in one piece, and a file on disk in the pieces that
`PlatformReadBytes` gives.

`standardEtag` is the same text by the definitions of the two checksums. The pieces make no
difference to it. The update functions count the bytes of a piece in 32 bits, though, so that of a
file in memory only the rest of its length by 4 GiB is looked at.
-/

namespace CWebUI.Files

open ByteString Checksum Polynomial

/-! ## The checksums of the code -/

/-- The static variables. -/
structure ChecksumState where
  s1 : UInt32
  s2 : UInt32
  reg32 : UInt32
  deriving DecidableEq, Repr

/-- `adler32_init` -/
def adler32Init (st : ChecksumState) : ChecksumState := { st with s1 := 1, s2 := 0 }

/-- A round of the loop of `adler32_update`. -/
def adler32Byte (st : ChecksumState) (c : UInt8) : ChecksumState :=
  let s1 := (st.s1 + c.toUInt32) % 65521
  { st with s1 := s1, s2 := (st.s2 + s1) % 65521 }

/-- `adler32_update` -/
def adler32Update (st : ChecksumState) (buf : List UInt8) (buflength : UInt32) : ChecksumState :=
  (buf.take buflength.toNat).foldl adler32Byte st

/-- `adler32_finish` -/
def adler32Finish (st : ChecksumState) : UInt32 := (st.s2 <<< 16) ||| st.s1

/-- `crc32_init` -/
def crc32Init (st : ChecksumState) : ChecksumState := { st with reg32 := 0xffffffff }

/-- The loop of `crc32_byte`, with the rounds that are left. The byte is a `char`, which has a
sign. -/
def crc32Rounds : Nat → UInt32 → Int8 → UInt32
  | 0, reg32, _ => reg32
  | n + 1, reg32, byte =>
      crc32Rounds n
        (if reg32 &&& 1 ≠ (byte.toInt32 &&& 1).toUInt32 then (reg32 >>> 1) ^^^ 0xEDB88320
          else reg32 >>> 1)
        (byte >>> 1)

/-- `crc32_byte` -/
def crc32Byte (st : ChecksumState) (byte : Int8) : ChecksumState :=
  { st with reg32 := crc32Rounds 8 st.reg32 byte }

/-- `crc32_update` -/
def crc32Update (st : ChecksumState) (data : List UInt8) (len : UInt32) : ChecksumState :=
  (data.take len.toNat).foldl (fun st c => crc32Byte st c.toInt8) st

/-- `crc32_finish` -/
def crc32Finish (st : ChecksumState) : UInt32 := st.reg32 ^^^ 0xffffffff

/-! ## The text -/

/-- A digit; `letter` is the one for ten. -/
def hexDigit (letter : UInt8) (d : Nat) : UInt8 :=
  if d < 10 then UInt8.ofNat (48 + d) else UInt8.ofNat (letter.toNat + (d - 10))

/-- The last `k` digits of a number. -/
def hexDigits (letter : UInt8) : Nat → Nat → List UInt8
  | 0, _ => []
  | k + 1, n => hexDigits letter k (n / 16) ++ [hexDigit letter (n % 16)]

/-- `%08x` and, with the capital letter, `%08X`: at least eight digits. -/
def printHex (letter : UInt8) (n : Nat) : List UInt8 :=
  hexDigits letter (max 8 (Nat.log 16 n + 1)) n

/-- The text of an ETag. -/
def etagText (length : Nat) (crc adler : UInt32) : List UInt8 :=
  printHex 97 length ++ (printHex 65 crc.toNat ++ printHex 65 adler.toNat)

/-! ## `generateEtag` -/

/-- The part of `WebserverFileInfo` that `generateEtag` uses. An ETag that is null is `none`. -/
structure EtagFile where
  ramCached : Bool
  data : List UInt8
  dataLenght : Nat
  etag : Option (List UInt8)
  etagLength : UInt8
  deriving DecidableEq, Repr

/-- `sprintf` to the ETag. -/
def EtagFile.print (file : EtagFile) (text : List UInt8) : EtagFile :=
  { file with etag := some text, etagLength := UInt8.ofNat text.length }

/-- The loop over a file on disk. `reads` are the bytes that the next calls of `PlatformReadBytes`
give; behind the end of the file it gives none, and the loop does not end. -/
def readLoop (dataLenght : Nat) :
    List (List UInt8) → Nat → ChecksumState → Option ChecksumState
  | [], pos, st => if pos < dataLenght then none else some st
  | data :: reads, pos, st =>
      if pos < dataLenght then
        let ret2 := UInt32.ofNat data.length
        readLoop dataLenght reads (pos + data.length)
          (adler32Update (crc32Update st data ret2) data ret2)
      else some st

/-- `generateEtag`. `disk` is what is read, if the file can be opened. -/
def generateEtag (disk : Option (List (List UInt8))) (st : ChecksumState) (file : EtagFile) :
    Option (ChecksumState × EtagFile) :=
  -- a new ETag is zeroed
  let file := { file with etag := some (file.etag.getD []) }
  if file.ramCached then
    let st := crc32Update (crc32Init st) file.data (UInt32.ofNat file.dataLenght)
    let crc := crc32Finish st
    let st := adler32Update (adler32Init st) file.data (UInt32.ofNat file.dataLenght)
    let adler := adler32Finish st
    some (st, file.print (etagText file.dataLenght crc adler))
  else
    match disk with
    | none => some (st, file)
    | some reads => do
        let st ← readLoop file.dataLenght reads 0 (adler32Init (crc32Init st))
        some (st, file.print (etagText file.dataLenght (crc32Finish st) (adler32Finish st)))

/-- The ETag that a call leaves. -/
def etagOf (r : Option (ChecksumState × EtagFile)) : Option (List UInt8) := r.bind fun r => r.2.etag

/-! ## The standard checksums -/

/-- The bits of a byte, the lowest one first. -/
def byteBits (c : UInt8) : List Bool := (List.range 8).map c.toBitVec.getLsbD

/-- The generator of CRC-32. -/
noncomputable def crc32Polynomial : (ZMod 2)[X] :=
  X ^ 32 + X ^ 26 + X ^ 23 + X ^ 22 + X ^ 16 + X ^ 12 + X ^ 11 + X ^ 10 + X ^ 8 + X ^ 7 + X ^ 5 +
    X ^ 4 + X ^ 2 + X + 1

/-- The CRC-32 of a text: a remainder. -/
noncomputable def standardCrc32 (content : List UInt8) : UInt32 :=
  ⟨reflectedCrc crc32Polynomial 32 (content.flatMap byteBits)⟩

/-- The Adler-32 of a text: two sums by 65521. -/
def standardAdler32 (content : List UInt8) : UInt32 :=
  UInt32.ofNat (secondSum (content.map UInt8.toNat) % 65521 * 65536 +
    firstSum (content.map UInt8.toNat) % 65521)

/-- The ETag of a text. -/
noncomputable def standardEtag (content : List UInt8) : List UInt8 :=
  etagText content.length (standardCrc32 content) (standardAdler32 content)

/-- The content in pieces of 1 to 4096 bytes. -/
structure ReadsOf (content : List UInt8) (reads : List (List UInt8)) : Prop where
  flatten : reads.flatten = content
  size : ∀ data ∈ reads, 1 ≤ data.length ∧ data.length ≤ 4096

/-- **The ETags agree**: a file with this content gets the standard ETag from memory and from disk,
in whatever pieces it is read and whatever the static variables hold. -/
structure EtagsAgree (content : List UInt8) : Prop where
  ram : ∀ disk st (file : EtagFile), file.ramCached = true → file.data = content →
    file.dataLenght = content.length →
    etagOf (generateEtag disk st file) = some (standardEtag content)
  disk : ∀ reads st (file : EtagFile), file.ramCached = false →
    file.dataLenght = content.length → ReadsOf content reads →
    etagOf (generateEtag (some reads) st file) = some (standardEtag content)

/-! ## CRC-32 -/

/-- The bits that the rounds of `crc32_byte` look at. -/
def signedBits : Nat → Int8 → List Bool
  | 0, _ => []
  | n + 1, byte => byte.toBitVec.getLsbD 0 :: signedBits n (byte >>> 1)

/-- The copies of the sign come behind the eight bits. -/
theorem signedBits_eq : ∀ c : UInt8, signedBits 8 c.toInt8 = byteBits c :=
  forall_byte (by decide +kernel)

theorem lowBit_register (reg32 : UInt32) :
    reg32 &&& 1 = if reg32.toBitVec.getLsbD 0 then 1 else 0 := by
  apply UInt32.toBitVec_inj.mp
  rw [UInt32.toBitVec_and, show (1 : UInt32).toBitVec = 1#32 from rfl,
    BitVec.and_one_eq_setWidth_ofBool_getLsbD]
  cases reg32.toBitVec.getLsbD 0 <;> rfl

theorem lowBit_char (byte : Int8) :
    (byte.toInt32 &&& 1).toUInt32 = if byte.toBitVec.getLsbD 0 then 1 else 0 := by
  have h : ∀ c : UInt8, (c.toInt8.toInt32 &&& 1).toUInt32 =
      if c.toInt8.toBitVec.getLsbD 0 then 1 else 0 := forall_byte (by decide +kernel)
  exact h byte.toUInt8

/-- The rounds shift bits into the register. -/
theorem crc32Rounds_toBitVec (n : Nat) (reg32 : UInt32) (byte : Int8) :
    (crc32Rounds n reg32 byte).toBitVec =
      (signedBits n byte).foldl (shiftIn 0xEDB88320#32) reg32.toBitVec := by
  induction n generalizing reg32 byte with
  | zero => rfl
  | succ n ih =>
      rw [crc32Rounds, ih, signedBits, List.foldl_cons, lowBit_register, lowBit_char, shiftIn]
      -- the condition of the code is that the two low bits differ
      congr 1
      cases reg32.toBitVec.getLsbD 0 <;> cases byte.toBitVec.getLsbD 0 <;> simp

/-- The generator of CRC-32 is the constant of the code. -/
theorem generator_crc32 : generator 0xEDB88320#32 = crc32Polynomial := by
  rw [generator, crc32Polynomial, poly]
  simp [Finset.sum_range_succ, bit]
  ring

/-- The register has gone through the content. -/
def HasCrc (st : ChecksumState) (content : List UInt8) : Prop :=
  st.reg32.toBitVec =
    (content.flatMap byteBits).foldl (shiftIn 0xEDB88320#32) (BitVec.allOnes 32)

theorem hasCrc_init (st : ChecksumState) : HasCrc (crc32Init st) [] := rfl

theorem HasCrc.byte {st : ChecksumState} {content : List UInt8} (h : HasCrc st content)
    (c : UInt8) : HasCrc (crc32Byte st c.toInt8) (content ++ [c]) := by
  rw [HasCrc, crc32Byte, crc32Rounds_toBitVec, signedBits_eq, h, List.flatMap_append,
    List.foldl_append, List.flatMap_singleton]

theorem HasCrc.update {st : ChecksumState} {content : List UInt8} (h : HasCrc st content)
    (data : List UInt8) (len : UInt32) :
    HasCrc (crc32Update st data len) (content ++ data.take len.toNat) := by
  rw [crc32Update]
  generalize data.take len.toNat = data
  induction data generalizing st content with
  | nil =>
      rw [List.append_nil]
      exact h
  | cons c data ih =>
      rw [List.append_cons]
      exact ih (h.byte c)

theorem HasCrc.finish {st : ChecksumState} {content : List UInt8} (h : HasCrc st content) :
    crc32Finish st = standardCrc32 content := by
  apply UInt32.toBitVec_inj.mp
  show st.reg32.toBitVec ^^^ BitVec.allOnes 32 = reflectedCrc crc32Polynomial 32 _
  rw [BitVec.xor_allOnes, h, not_foldl_shiftIn, generator_crc32]

/-! ## Adler-32 -/

/-- The sums have gone through the content. -/
structure HasAdler (st : ChecksumState) (content : List UInt8) : Prop where
  first : st.s1.toNat = firstSum (content.map UInt8.toNat) % 65521
  second : st.s2.toNat = secondSum (content.map UInt8.toNat) % 65521

theorem hasAdler_init (st : ChecksumState) : HasAdler (adler32Init st) [] := ⟨rfl, rfl⟩

theorem HasAdler.first_lt {st : ChecksumState} {content : List UInt8} (h : HasAdler st content) :
    st.s1.toNat < 65521 := by
  rw [h.first]
  exact Nat.mod_lt _ (by decide)

theorem HasAdler.second_lt {st : ChecksumState} {content : List UInt8} (h : HasAdler st content) :
    st.s2.toNat < 65521 := by
  rw [h.second]
  exact Nat.mod_lt _ (by decide)

theorem toNat_addMod {a b : UInt32} (h : a.toNat + b.toNat < 2 ^ 32) :
    ((a + b) % 65521).toNat = (a.toNat + b.toNat) % 65521 := by
  rw [UInt32.toNat_mod, UInt32.toNat_add, Nat.mod_eq_of_lt h]
  rfl

/-- The sums do not overflow: they are below the modulus, and a byte or another sum is added. -/
theorem adler32Byte_sums {st : ChecksumState} (h1 : st.s1.toNat < 65521)
    (h2 : st.s2.toNat < 65521) (c : UInt8) :
    ((adler32Byte st c).s1.toNat, (adler32Byte st c).s2.toNat) =
      addSums 65521 (st.s1.toNat, st.s2.toNat) c.toNat := by
  have hc := c.toNat_lt
  have hfirst : (adler32Byte st c).s1.toNat = (st.s1.toNat + c.toNat) % 65521 := by
    have hroom : st.s1.toNat + c.toUInt32.toNat < 2 ^ 32 := by
      rw [UInt8.toNat_toUInt32]
      omega
    calc (adler32Byte st c).s1.toNat
        = (st.s1.toNat + c.toUInt32.toNat) % 65521 := toNat_addMod hroom
      _ = (st.s1.toNat + c.toNat) % 65521 := by rw [UInt8.toNat_toUInt32]
  have hsecond : (adler32Byte st c).s2.toNat =
      (st.s2.toNat + (adler32Byte st c).s1.toNat) % 65521 := by
    have hlt : (adler32Byte st c).s1.toNat < 65521 := by
      rw [hfirst]
      exact Nat.mod_lt _ (by decide)
    have hroom : st.s2.toNat + (adler32Byte st c).s1.toNat < 2 ^ 32 := by omega
    exact toNat_addMod hroom
  rw [hsecond, hfirst, addSums]

theorem HasAdler.byte {st : ChecksumState} {content : List UInt8} (h : HasAdler st content)
    (c : UInt8) : HasAdler (adler32Byte st c) (content ++ [c]) := by
  have hmap : (content ++ [c]).map UInt8.toNat = content.map UInt8.toNat ++ [c.toNat] := by simp
  have hstep := adler32Byte_sums h.first_lt h.second_lt c
  rw [h.first, h.second, addSums_sums, ← hmap, Prod.mk.injEq] at hstep
  exact ⟨hstep.1, hstep.2⟩

theorem HasAdler.update {st : ChecksumState} {content : List UInt8} (h : HasAdler st content)
    (data : List UInt8) (len : UInt32) :
    HasAdler (adler32Update st data len) (content ++ data.take len.toNat) := by
  rw [adler32Update]
  generalize data.take len.toNat = data
  induction data generalizing st content with
  | nil =>
      rw [List.append_nil]
      exact h
  | cons c data ih =>
      rw [List.append_cons]
      exact ih (h.byte c)

theorem HasAdler.finish {st : ChecksumState} {content : List UInt8} (h : HasAdler st content) :
    adler32Finish st = standardAdler32 content := by
  have h1 := h.first_lt
  have h2 := h.second_lt
  apply UInt32.toNat_inj.mp
  rw [standardAdler32, ← h.first, ← h.second, UInt32.toNat_ofNat', adler32Finish, UInt32.toNat_or,
    UInt32.toNat_shiftLeft]
  -- the low half of the shifted sum is empty, so that the bits are added
  show st.s2.toNat <<< 16 % 2 ^ 32 ||| st.s1.toNat = _
  rw [Nat.shiftLeft_eq, Nat.mod_eq_of_lt (by omega), Nat.mod_eq_of_lt (by omega),
    ← Nat.shiftLeft_eq, ← Nat.shiftLeft_add_eq_or_of_lt (by omega), Nat.shiftLeft_eq]

/-! ## One checksum leaves the other alone -/

theorem reg32_adler32Update (st : ChecksumState) (data : List UInt8) (len : UInt32) :
    (adler32Update st data len).reg32 = st.reg32 := by
  rw [adler32Update]
  generalize data.take len.toNat = data
  induction data generalizing st with
  | nil => rfl
  | cons c data ih =>
      rw [List.foldl_cons, ih]
      rfl

theorem sums_crc32Update (st : ChecksumState) (data : List UInt8) (len : UInt32) :
    (crc32Update st data len).s1 = st.s1 ∧ (crc32Update st data len).s2 = st.s2 := by
  rw [crc32Update]
  generalize data.take len.toNat = data
  induction data generalizing st with
  | nil => exact ⟨rfl, rfl⟩
  | cons c data ih =>
      rw [List.foldl_cons]
      exact ih (crc32Byte st c.toInt8)

theorem HasCrc.adler {st : ChecksumState} {content : List UInt8} (h : HasCrc st content)
    (data : List UInt8) (len : UInt32) : HasCrc (adler32Update st data len) content := by
  rw [HasCrc, reg32_adler32Update]
  exact h

theorem HasAdler.crc {st : ChecksumState} {content : List UInt8} (h : HasAdler st content)
    (data : List UInt8) (len : UInt32) : HasAdler (crc32Update st data len) content := by
  obtain ⟨h1, h2⟩ := sums_crc32Update st data len
  exact ⟨by rw [h1, h.first], by rw [h2, h.second]⟩

/-! ## The two branches -/

/-- The part of a content that its length in 32 bits covers. -/
def seenPart (content : List UInt8) : List UInt8 := content.take (content.length % 2 ^ 32)

theorem seenPart_eq {content : List UInt8} (h : content.length < 2 ^ 32) :
    seenPart content = content := by
  rw [seenPart, Nat.mod_eq_of_lt h, List.take_length]

theorem take_length_uint32 (content : List UInt8) :
    content.take (UInt32.ofNat content.length).toNat = seenPart content := by
  rw [UInt32.toNat_ofNat']
  rfl

/-- From memory, the ETag is about the part that is seen. -/
theorem generateEtag_ram {content : List UInt8} (disk : Option (List (List UInt8)))
    (st : ChecksumState) {file : EtagFile} (hram : file.ramCached = true)
    (hdata : file.data = content) (hlen : file.dataLenght = content.length) :
    etagOf (generateEtag disk st file) = some (etagText content.length
      (standardCrc32 (seenPart content)) (standardAdler32 (seenPart content))) := by
  have hcrc := (hasCrc_init st).update content (UInt32.ofNat content.length)
  have hadler := (hasAdler_init
    (crc32Update (crc32Init st) content (UInt32.ofNat content.length))).update content
    (UInt32.ofNat content.length)
  rw [List.nil_append, take_length_uint32] at hcrc hadler
  unfold generateEtag
  dsimp only
  rw [if_pos hram, hdata, hlen, ← hcrc.finish, ← hadler.finish]
  rfl

/-- The loop goes through all pieces. -/
theorem readLoop_eq {dataLenght : Nat} {reads : List (List UInt8)} {pos : Nat}
    {st : ChecksumState} {content : List UInt8} (hcrc : HasCrc st content)
    (hadler : HasAdler st content) (hpos : pos + reads.flatten.length = dataLenght)
    (hsize : ∀ data ∈ reads, 1 ≤ data.length ∧ data.length ≤ 4096) :
    ∃ st', readLoop dataLenght reads pos st = some st' ∧
      HasCrc st' (content ++ reads.flatten) ∧ HasAdler st' (content ++ reads.flatten) := by
  induction reads generalizing pos st content with
  | nil =>
      rw [List.flatten_nil, List.length_nil] at hpos
      rw [readLoop, if_neg (by omega), List.flatten_nil, List.append_nil]
      exact ⟨st, rfl, hcrc, hadler⟩
  | cons data reads ih =>
      obtain ⟨hone, hfour⟩ := hsize data List.mem_cons_self
      have htake : data.take (UInt32.ofNat data.length).toNat = data := by
        rw [take_length_uint32]
        exact seenPart_eq (by omega)
      -- each of the two updates leaves the variables of the other checksum alone
      have hcrc' := (hcrc.update data (UInt32.ofNat data.length)).adler data
        (UInt32.ofNat data.length)
      have hadler' := (hadler.crc data (UInt32.ofNat data.length)).update data
        (UInt32.ofNat data.length)
      rw [htake] at hcrc' hadler'
      rw [List.flatten_cons, List.length_append] at hpos
      rw [readLoop, if_pos (by omega), List.flatten_cons, ← List.append_assoc]
      exact ih hcrc' hadler' (by omega) fun d hd => hsize d (List.mem_cons_of_mem data hd)

/-- From disk, the ETag is the standard one. -/
theorem generateEtag_disk {content : List UInt8} {reads : List (List UInt8)} (st : ChecksumState)
    {file : EtagFile} (hdisk : file.ramCached = false) (hlen : file.dataLenght = content.length)
    (hreads : ReadsOf content reads) :
    etagOf (generateEtag (some reads) st file) = some (standardEtag content) := by
  -- both checksums start anew, whatever the variables hold from an earlier file
  have hstart : HasCrc (adler32Init (crc32Init st)) [] := rfl
  have hpos : 0 + reads.flatten.length = content.length := by rw [hreads.flatten, Nat.zero_add]
  obtain ⟨st', hloop, hcrc, hadler⟩ :=
    readLoop_eq hstart (hasAdler_init (crc32Init st)) hpos hreads.size
  rw [List.nil_append, hreads.flatten] at hcrc hadler
  have hram : ¬ file.ramCached = true := by rw [hdisk]; decide
  unfold generateEtag
  dsimp only
  rw [if_neg hram, hlen, hloop, standardEtag, ← hcrc.finish, ← hadler.finish]
  rfl

/-! ## What the text shows -/

theorem hexDigits_length (letter : UInt8) (k n : Nat) : (hexDigits letter k n).length = k := by
  induction k generalizing n with
  | zero => rfl
  | succ k ih => rw [hexDigits, List.length_append, ih, List.length_singleton]

theorem hexDigitValue_capital : ∀ d < 16, hexDigitValue (hexDigit 65 d) = d := by decide

/-- The digits are those of the number. -/
theorem hexValueFrom_hexDigits (k n : Nat) : hexValueFrom 0 (hexDigits 65 k n) = n % 16 ^ k := by
  induction k generalizing n with
  | zero => rw [hexDigits, hexValueFrom_nil, pow_zero, Nat.mod_one]
  | succ k ih =>
      have hlast := hexDigitValue_capital (n % 16) (Nat.mod_lt n (by decide))
      have hfront : hexValueFrom 0 (hexDigits 65 (k + 1) n) =
          16 * hexValueFrom 0 (hexDigits 65 k (n / 16)) + hexDigitValue (hexDigit 65 (n % 16)) := by
        rw [hexDigits, hexValueFrom, List.foldl_append]
        rfl
      rw [hfront, hlast, ih, pow_succ, Nat.mul_comm (16 ^ k) 16, Nat.mod_mul]
      omega

theorem printHex_uint32 (letter : UInt8) (n : UInt32) :
    printHex letter n.toNat = hexDigits letter 8 n.toNat := by
  have hlog : Nat.log 16 n.toNat < 8 := by
    apply Nat.log_lt_of_lt_pow'
    · decide
    · exact Nat.lt_of_lt_of_le n.toNat_lt (by decide)
  rw [printHex, Nat.max_eq_left (by omega)]

theorem printHex_inj {a b : UInt32} (h : printHex 65 a.toNat = printHex 65 b.toNat) : a = b := by
  rw [printHex_uint32, printHex_uint32] at h
  have hvalue := congrArg (hexValueFrom 0) h
  rw [hexValueFrom_hexDigits, hexValueFrom_hexDigits] at hvalue
  have ha : a.toNat < 16 ^ 8 := Nat.lt_of_lt_of_le a.toNat_lt (by decide)
  have hb : b.toNat < 16 ^ 8 := Nat.lt_of_lt_of_le b.toNat_lt (by decide)
  rw [Nat.mod_eq_of_lt ha, Nat.mod_eq_of_lt hb] at hvalue
  exact UInt32.toNat_inj.mp hvalue

/-- Two ETags of one length are the same if and only if the checksums are. -/
theorem etagText_inj {length : Nat} {crc adler crc' adler' : UInt32} :
    etagText length crc adler = etagText length crc' adler' ↔ crc = crc' ∧ adler = adler' := by
  constructor
  · intro h
    have hsums := List.append_cancel_left h
    have hlen : (printHex 65 crc.toNat).length = (printHex 65 crc'.toNat).length := by
      rw [printHex_uint32, printHex_uint32, hexDigits_length, hexDigits_length]
    obtain ⟨hcrc, hadler⟩ := List.append_inj hsums hlen
    exact ⟨printHex_inj hcrc, printHex_inj hadler⟩
  · rintro ⟨rfl, rfl⟩
    rfl

/-! ## Contents of every length -/

/-- The ETags agree if and only if the part that is seen in memory has the checksums of the whole
content. -/
theorem etagsAgree_seen (content : List UInt8) : EtagsAgree content ↔
    standardCrc32 (seenPart content) = standardCrc32 content ∧
      standardAdler32 (seenPart content) = standardAdler32 content := by
  constructor
  · intro h
    have hram := h.ram none ⟨0, 0, 0⟩ ⟨true, content, content.length, none, 0⟩ rfl rfl rfl
    rw [generateEtag_ram none _ rfl rfl rfl, Option.some.injEq, standardEtag] at hram
    exact etagText_inj.mp hram
  · rintro ⟨hcrc, hadler⟩
    constructor
    · intro disk st file hram hdata hlen
      rw [generateEtag_ram disk st hram hdata hlen, hcrc, hadler, standardEtag]
    · intro reads st file hdisk hlen hreads
      exact generateEtag_disk st hdisk hlen hreads

theorem etagsAgree_short {content : List UInt8} (h : content.length < 2 ^ 32) :
    EtagsAgree content := by
  rw [etagsAgree_seen, seenPart_eq h]
  exact ⟨rfl, rfl⟩

/-- A content whose only byte that is not zero lies behind the part that is seen. -/
def hiddenOne (n : Nat) : List UInt8 :=
  List.replicate (n % 2 ^ 32) 0 ++ 1 :: List.replicate (n - n % 2 ^ 32 - 1) 0

theorem hiddenOne_length {n : Nat} (h : 2 ^ 32 ≤ n) : (hiddenOne n).length = n := by
  have := Nat.mod_lt n (show 2 ^ 32 > 0 by decide)
  rw [hiddenOne, List.length_append, List.length_cons, List.length_replicate, List.length_replicate]
  omega

/-- Its first sum differs from that of the part that is seen. -/
theorem hiddenOne_disagrees {n : Nat} (h : 2 ^ 32 ≤ n) : ¬ EtagsAgree (hiddenOne n) := by
  rw [etagsAgree_seen]
  rintro ⟨-, hadler⟩
  have hseen : seenPart (hiddenOne n) = List.replicate (n % 2 ^ 32) 0 := by
    rw [seenPart, hiddenOne_length h, hiddenOne]
    exact List.take_left' List.length_replicate
  have hnat := congrArg UInt32.toNat hadler
  have hzero : firstSum ((List.replicate (n % 2 ^ 32) (0 : UInt8)).map UInt8.toNat) = 1 := by
    simp [firstSum]
  have hone : firstSum ((hiddenOne n).map UInt8.toNat) = 2 := by
    simp [firstSum, hiddenOne]
  rw [hseen, standardAdler32, standardAdler32, UInt32.toNat_ofNat', UInt32.toNat_ofNat', hzero,
    hone] at hnat
  omega

/-- **The ETags agree exactly for contents that are seen as a whole**, or whose part that is seen
happens to have the same checksums. They agree for all contents of a length if and only if it is
below 4 GiB. -/
theorem etagsAgree_iff (content : List UInt8) :
    (EtagsAgree content ↔ content.length < 2 ^ 32 ∨
      (standardCrc32 (content.take (content.length % 2 ^ 32)) = standardCrc32 content ∧
        standardAdler32 (content.take (content.length % 2 ^ 32)) = standardAdler32 content)) ∧
    ((∀ other : List UInt8, other.length = content.length → EtagsAgree other) ↔
      content.length < 2 ^ 32) := by
  constructor
  · constructor
    · exact fun h => .inr ((etagsAgree_seen content).mp h)
    · rintro (h | h)
      · exact etagsAgree_short h
      · exact (etagsAgree_seen content).mpr h
  · constructor
    · intro hall
      by_contra hlong
      have hlen := hiddenOne_length (Nat.not_lt.mp hlong)
      exact hiddenOne_disagrees (Nat.not_lt.mp hlong) (hall _ hlen)
    · intro hlt other hlen
      apply etagsAgree_short
      rw [hlen]
      exact hlt

/-- 4 GiB in memory, of which nothing is seen. -/
theorem etagsAgree_fails : ¬ ∀ content : List UInt8, EtagsAgree content :=
  fun hall => hiddenOne_disagrees (Nat.le_refl (2 ^ 32)) (hall (hiddenOne (2 ^ 32)))

example : crc32Finish (crc32Update (crc32Init ⟨0, 0, 0⟩) (ascii "123456789") 9) = 0xCBF43926 := by
  decide +kernel

end CWebUI.Files
