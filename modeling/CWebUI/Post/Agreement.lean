import CWebUI.Post.ParsePostData

set_option autoImplicit false

/-! # Both ways of an upload

An upload is buffered and cut into its parts afterwards (`parsePostData`), or its parts are found
while it is received (`postStreamFeed`). The two parsers have nothing in common. This file proves
that for bodies as browsers send them they report the same files, and where they do not.
-/

namespace CWebUI.Post

open ByteString CWebUI.Http ListLemmas

/-! ## The files of a form -/

/-- A file that is sent with a form. -/
structure FormFile where
  name : List UInt8
  fileName : List UInt8
  contentType : Option (List UInt8)
  payload : List UInt8
  deriving DecidableEq, Repr

/-- The part of the file: a `Content-Disposition` that ends in the file name, and a
`Content-Type`. -/
def FormFile.upload (f : FormFile) : FileUpload where
  header :=
    { before := []
      field := contentDispositionName
      params := formDataFront ++ (f.name ++ ascii "\"; ")
      fileName := f.fileName
      rest := []
      after := f.contentType.toList.map (contentTypeName ++ ·) }
  payload := f.payload

/-- A text for a quoted name: no quote, no `=`, no CR, LF or NUL. -/
structure QuotedText (l : List UInt8) : Prop where
  noQuote : 34 ∉ l
  noEquals : 61 ∉ l
  noCR : cr ∉ l
  noLF : lf ∉ l
  noNUL : 0 ∉ l

/-- A file that can be sent with this boundary. -/
structure FormFile.Valid (boundary : List UInt8) (f : FormFile) : Prop where
  name : QuotedText f.name
  fileName : QuotedText f.fileName
  length : 1 ≤ f.fileName.length ∧ f.fileName.length ≤ 256
  contentType : ∀ ct ∈ f.contentType, cr ∉ ct ∧ lf ∉ ct ∧ 0 ∉ ct
  payload : ¬ boundary <:+: f.payload

theorem FormFile.disposition_eq (f : FormFile) : f.upload.header.disposition =
    formDataFront ++ (f.name ++ (ascii "\"; " ++ (fileNameKey ++ 34 :: (f.fileName ++ [34])))) := by
  simp [FilePartHeader.disposition, FormFile.upload]

/-- What the line of the disposition consists of. -/
theorem FormFile.not_mem_disposition {f : FormFile} {c : UInt8} (hname : c ∉ f.name)
    (hfile : c ∉ f.fileName) (hfront : c ∉ formDataFront) (hquote : c ∉ ascii "\"; ")
    (hkey : c ∉ fileNameKey) (hc : c ≠ 34) : c ∉ f.upload.header.disposition := by
  rw [FormFile.disposition_eq]
  simp only [List.mem_append, List.mem_cons, List.not_mem_nil, or_false]
  rintro (h | h | h | h | h | h | h)
  · exact hfront h
  · exact hname h
  · exact hquote h
  · exact hkey h
  · exact hc h
  · exact hfile h
  · exact hc h

/-- The key of the file name does not stand in the text before it. -/
theorem not_fileNameKey_infix {name : List UInt8} (hname : 61 ∉ name) :
    ¬ (fileNameKey ++ [34] <:+: formDataFront ++ (name ++ ascii "\"; ")) := by
  rintro ⟨u, v, h⟩
  -- the only `=` of the text stands behind `form-data; name`
  have hget : (formDataFront ++ (name ++ ascii "\"; "))[u.length + 8]? = some 61 := by
    rw [← h, List.append_assoc, List.getElem?_append_right (by omega)]
    have hsub : u.length + 8 - u.length = 8 := by omega
    rw [hsub]
    rfl
  have hsmall : u.length + 8 < 17 := by
    by_contra hge
    rw [List.getElem?_append_right (by simp [formDataFront, ascii]; omega)] at hget
    rcases List.mem_append.mp (List.mem_of_getElem? hget) with hmem | hmem
    · exact hname hmem
    · revert hmem
      decide
  have hu : u.length = 7 := by
    rw [List.getElem?_append_left (by simp [formDataFront, ascii]; omega)] at hget
    have hcases : ∀ i < 9, formDataFront[i + 8]? = some 61 → i = 7 := by decide
    exact hcases u.length (by omega) hget
  -- the key would have to start with a `t`
  have hfirst : (formDataFront ++ (name ++ ascii "\"; "))[u.length]? = some 102 := by
    rw [← h, List.append_assoc, List.getElem?_append_right (Nat.le_refl _), Nat.sub_self]
    rfl
  rw [hu] at hfirst
  revert hfirst
  show formDataFront[7]? = some 102 → False
  decide

theorem FormFile.Valid.plain {boundary : List UInt8} {f : FormFile} (h : f.Valid boundary) :
    PlainLine (contentDispositionName ++ f.upload.header.disposition) := by
  have hline : ∀ {c : UInt8}, c ∉ contentDispositionName → c ∉ f.upload.header.disposition →
      c ∉ contentDispositionName ++ f.upload.header.disposition := by
    intro c h₁ h₂ hmem
    rcases List.mem_append.mp hmem with hmem | hmem
    · exact h₁ hmem
    · exact h₂ hmem
  refine ⟨?_, hline (by decide) ?_, hline (by decide) ?_, hline (by decide) ?_⟩
  · intro hnil
    have hname := (List.append_eq_nil_iff.mp hnil).1
    revert hname
    decide
  · exact f.not_mem_disposition h.name.noCR h.fileName.noCR (by decide) (by decide) (by decide)
      (by decide)
  · exact f.not_mem_disposition h.name.noLF h.fileName.noLF (by decide) (by decide) (by decide)
      (by decide)
  · exact f.not_mem_disposition h.name.noNUL h.fileName.noNUL (by decide) (by decide) (by decide)
      (by decide)

theorem FormFile.Valid.readable {boundary : List UInt8} {f : FormFile} (h : f.Valid boundary) :
    f.upload.header.Readable where
  plain := by
    intro l hl
    rcases List.mem_cons.mp hl with rfl | hl
    · exact h.plain
    · obtain ⟨ct, hct, rfl⟩ := List.mem_map.mp hl
      obtain ⟨hcr, hlf, hnul⟩ := h.contentType ct (Option.mem_toList.mp hct)
      have hline : ∀ {c : UInt8}, c ∉ contentTypeName → c ∉ ct → c ∉ contentTypeName ++ ct := by
        intro c h₁ h₂ hmem
        rcases List.mem_append.mp hmem with hmem | hmem
        · exact h₁ hmem
        · exact h₂ hmem
      refine ⟨?_, hline (by decide) hcr, hline (by decide) hlf, hline (by decide) hnul⟩
      intro hnil
      have hname := (List.append_eq_nil_iff.mp hnil).1
      revert hname
      decide
  before := by
    intro l hl
    cases hl
  after := by
    intro l hl
    right
    obtain ⟨ct, _, rfl⟩ := List.mem_map.mp hl
    exact (startsWithIgnoreCase_field contentTypeName contentTypeName ct rfl).1
  field := rfl
  boundary := by
    have hlast : (formDataFront ++ (f.name ++ ascii "\"; ")).getLast? = some 32 := by
      rw [← List.append_assoc, List.getLast?_append]
      rfl
    rw [show f.upload.header.params = formDataFront ++ (f.name ++ ascii "\"; ") from rfl, hlast]
    decide
  first := not_fileNameKey_infix h.name.noEquals
  quote := h.fileName.noQuote

/-! ## The buffered way -/

/-- **The uploads of a buffered body.** -/
theorem parsePostData_files {b : List UInt8} (hcr : cr ∉ b) (hnul : 0 ∉ b) (epilogue : List UInt8)
    (files : List FormFile) (hf : ∀ f ∈ files, f.Valid (ascii "--" ++ b)) :
    parsePostData (ascii "--" ++ b)
      (encodeBody (ascii "--" ++ b) [] epilogue (files.map FormFile.upload)) =
      files.map fun f => ⟨some f.payload, f.fileName, f.payload.length⟩ := by
  have hcr' := cr_not_mem_boundary hcr
  have hnul' : 0 ∉ ascii "--" ++ b := by
    intro h
    rcases List.mem_append.mp h with h | h
    · revert h
      decide
    · exact hnul h
  have hparts : ∀ p ∈ files.map FormFile.upload,
      p.header.Readable ∧ ¬ ascii "--" ++ b <:+: p.payload := by
    intro p hp
    obtain ⟨f, hmem, rfl⟩ := List.mem_map.mp hp
    exact ⟨(hf f hmem).readable, (hf f hmem).payload⟩
  rw [parsePostData_encodeBody hcr' hnul' rfl epilogue _ (fun p hp => (hparts p hp).1)
    (fun p hp => (hparts p hp).2), List.map_map]
  apply List.map_congr_left
  intro f hmem
  have h := hf f hmem
  have hname : getFormDataFilename (some f.upload.header.disposition) = some f.fileName := by
    have hno := f.not_mem_disposition h.name.noNUL h.fileName.noNUL (by decide) (by decide)
      (by decide) (by decide)
    rw [FormFile.disposition_eq] at hno ⊢
    exact getFormDataFilename_eq f.name f.fileName h.name.noEquals hno
  show UploadFileInfo.mk (some f.payload) ((getFormDataFilename _).getD []) f.payload.length = _
  rw [hname, Option.getD_some]

/-! ## The streamed way -/

/-- A payload without the boundary does not contain its own end. -/
theorem not_delimits_of_not_infix {boundary payload : List UInt8} (hcr : cr ∉ boundary)
    (h : ¬ boundary <:+: payload) :
    ¬ Delimits (crlf ++ boundary) (payload ++ (crlf ++ boundary)) := by
  have key : ∀ mark : List UInt8, mark.length = 2 →
      ¬ crlf ++ boundary ++ mark <:+: payload ++ (crlf ++ boundary) := by
    rintro mark hmark ⟨u, v, huv⟩
    -- there are two bytes behind this boundary, so it starts in the payload
    have hlength := congrArg List.length huv
    have hlen2 : crlf.length = 2 := rfl
    simp only [List.length_append, hmark, hlen2] at hlength
    have hpre : boundary <+: payload.drop (u.length + 2) ++ cr :: lf :: boundary := by
      refine ⟨mark ++ v, ?_⟩
      have hleft : u ++ (crlf ++ boundary ++ mark) ++ v = (u ++ crlf) ++ (boundary ++ (mark ++ v)) := by
        simp
      have hdrop := congrArg (List.drop (u.length + 2)) huv
      rw [hleft, List.drop_left' (by rw [List.length_append, hlen2]),
        List.drop_append_of_le_length (by omega)] at hdrop
      exact hdrop
    have hin : boundary <+: payload.drop (u.length + 2) := prefix_of_not_mem hcr hpre
    exact h (hin.isInfix.trans (List.drop_suffix _ _).isInfix)
  rintro (hin | hin)
  · exact key crlf rfl hin
  · exact key [45, 45] rfl hin

/-- The entry of a file that the handler has got. -/
def FilePart.upload (f : FilePart) : UploadFileInfo where
  data := none
  name := (f.name.getD []).take postStreamMaxName
  length := f.bytes.length

theorem successful_neverAborts {ps : List PartCalls} (h : ∀ p ∈ ps, p.success = true)
    (before : List Callback) :
    successful neverAborts before ps = (ps.map PartCalls.file).map FilePart.upload := by
  induction ps generalizing before with
  | nil => rfl
  | cons p ps ih =>
      have hp := h p List.mem_cons_self
      rw [successful, if_pos ⟨hp, rfl⟩, ih fun q hq => h q (List.mem_cons_of_mem _ hq)]
      rfl

/-- **What is reported for a stream that nobody aborts** are the files that the handler has got, if
all of them ended with success. -/
theorem fillUploadInfo_files (header : HttpRequestHeader) (b : List UInt8)
    (pieces : List (List UInt8)) {r : PostStream × Int}
    (hr : r = feedAll neverAborts (startPostStream header (ascii "--" ++ b) false) pieces)
    (hend : r.2 ≠ 0)
    (hall : ∀ f ∈ filesOf r.1.sink.trace, f.result = some true) :
    (postStreamFillUploadInfo r.1).2 = ((filesOf r.1.sink.trace).reverse).map FilePart.upload := by
  have hb : ascii "--" ++ b ≠ [] := by simp [ascii]
  have hinv := runActions_inv neverAborts header (ascii "--" ++ b) false hb (pieces.map .feed)
  have hstart : StreamInv neverAborts (crlf ++ (ascii "--" ++ b)) [] false
      (startPostStream header (ascii "--" ++ b) false) :=
    ⟨startPostStream_inv neverAborts header (ascii "--" ++ b) false hb, rfl, rfl, rfl,
      List.prefix_rfl, fun _ => rfl⟩
  have hup := runActions_uploads hstart
    (startPostStream_uploads neverAborts header (ascii "--" ++ b) false) (pieces.map .feed)
  rw [← feedAll_eq_runActions, ← hr] at hinv hup
  -- the last call found the end of the body
  have hclosed : r.1.sink.started = false := by
    rcases List.eq_nil_or_concat pieces with rfl | ⟨front, data, rfl⟩
    · rw [hr] at hend
      exact absurd rfl hend
    · have hfront := runActions_inv neverAborts header (ascii "--" ++ b) false hb (front.map .feed)
      rw [← feedAll_eq_runActions] at hfront
      have hlast : r = postStreamFeed neverAborts
          (feedAll neverAborts (startPostStream header (ascii "--" ++ b) false) front).1 data := by
        rw [hr, feedAll, List.concat_eq_append, List.foldl_append]
        rfl
      rw [hlast] at hend ⊢
      exact postStreamFeed_closed hfront.inv hfront.active hend
  obtain ⟨ps, -, htrace, hfinished⟩ := hup.closed hclosed
  have hfiles : filesOf r.1.sink.trace = (ps.map PartCalls.file).reverse := by
    rw [filesOf, htrace, files_partsCalls, List.append_nil]
  have hsuccess : ∀ p ∈ ps, p.success = true := by
    intro p hp
    have hresult := hall p.file (by
      rw [hfiles]
      exact List.mem_reverse.mpr (List.mem_map_of_mem hp))
    simpa [PartCalls.file] using hresult
  rw [postStreamFillUploadInfo_eq hinv.active hup, hfinished, successful_neverAborts hsuccess,
    hfiles, List.reverse_reverse]

/-- **The uploads of a streamed body**, whose part headers fit into the buffer. -/
theorem streamed_files (header : HttpRequestHeader) {b : List UInt8} (epilogue : List UInt8)
    (files : List FormFile) (pieces : List (List UInt8)) (hcr : cr ∉ b)
    (hf : ∀ f ∈ files, f.Valid (ascii "--" ++ b)) (hn : files.length ≤ postStreamMaxParts)
    (hshort : ∀ f ∈ files, (headerText f.upload.header.lines).length < postStreamMaxPartHeader)
    (hbody : pieces.flatten =
      encodeBody (ascii "--" ++ b) [] epilogue (files.map FormFile.upload))
    (hne : ∀ p ∈ pieces, p ≠ []) (h32 : pieces.flatten.length < 2 ^ 32)
    (hpos : header.postBufferPos = 0) (hlen : header.contentlenght.toNat = pieces.flatten.length)
    (herr : header.error = false) :
    let r := feedAll neverAborts (startPostStream header (ascii "--" ++ b) false) pieces
    r.2 = 1 ∧
      (postStreamFillUploadInfo r.1).2 =
        files.map (fun f => ⟨none, f.fileName, f.payload.length⟩) ∧
      (filesOf r.1.sink.trace).reverse =
        files.map fun f => ⟨some f.fileName, f.payload, some true⟩ := by
  intro r
  have hcr' := cr_not_mem_boundary hcr
  have hreadable : ∀ p ∈ files.map FormFile.upload, p.Readable (ascii "--" ++ b) := by
    intro p hp
    obtain ⟨f, hmem, rfl⟩ := List.mem_map.mp hp
    exact ⟨(hf f hmem).readable, hshort f hmem,
      not_delimits_of_not_infix hcr' (hf f hmem).payload⟩
  have hpre : Preamble (ascii "--" ++ b) [] := by
    refine ⟨Or.inl rfl, ?_⟩
    rintro (h | h)
    · have hnil := List.infix_nil.mp h
      simp [crlf] at hnil
    · have hnil := List.infix_nil.mp h
      simp at hnil
  obtain ⟨hret, hfiles⟩ := feedAll_readable header b [] epilogue (files.map FormFile.upload) pieces
    hcr hpre hreadable (by rw [List.length_map]; exact hn) hbody hne h32 hpos hlen herr
  rw [List.map_map] at hfiles
  refine ⟨hret, ?_, hfiles⟩
  rw [fillUploadInfo_files header b pieces (r := r) rfl (by rw [hret]; decide), hfiles, List.map_map]
  · apply List.map_congr_left
    intro f hmem
    show UploadFileInfo.mk none (f.fileName.take postStreamMaxName) f.payload.length = _
    rw [List.take_of_length_le (show f.fileName.length ≤ postStreamMaxName from
      (hf f hmem).length.2)]
  · intro f hmem
    rw [← List.mem_reverse, hfiles] at hmem
    obtain ⟨g, _, rfl⟩ := List.mem_map.mp hmem
    rfl

/-! ## Agreement -/

/-- **Both ways report the same files.** For every boundary without CR and NUL and every list of at
most `POST_STREAM_MAX_PARTS` files of a form, whose part headers are shorter than
`POST_STREAM_MAX_PART_HEADER`, and any cutting of the body: the uploads have the same names and
lengths in the same order, and the bytes in the buffered ones are those that the handler of the
stream has got. -/
theorem buffered_and_streamed_agree (header : HttpRequestHeader) (b epilogue : List UInt8)
    (files : List FormFile) (pieces : List (List UInt8)) (hcr : cr ∉ b) (hnul : 0 ∉ b)
    (hf : ∀ f ∈ files, f.Valid (ascii "--" ++ b)) (hn : files.length ≤ postStreamMaxParts)
    (hshort : ∀ f ∈ files, (headerText f.upload.header.lines).length < postStreamMaxPartHeader)
    (hbody : pieces.flatten =
      encodeBody (ascii "--" ++ b) [] epilogue (files.map FormFile.upload))
    (hne : ∀ p ∈ pieces, p ≠ []) (h32 : pieces.flatten.length < 2 ^ 32)
    (hpos : header.postBufferPos = 0) (hlen : header.contentlenght.toNat = pieces.flatten.length)
    (herr : header.error = false) :
    let buffered := parsePostData (ascii "--" ++ b) pieces.flatten
    let s := (feedAll neverAborts (startPostStream header (ascii "--" ++ b) false) pieces).1
    let streamed := (postStreamFillUploadInfo s).2
    buffered.map (fun u => (u.name, u.length)) = streamed.map (fun u => (u.name, u.length)) ∧
      buffered.map UploadFileInfo.data =
        (filesOf s.sink.trace).reverse.map fun f => some f.bytes := by
  intro buffered s streamed
  have hbuffered : buffered = files.map fun f => ⟨some f.payload, f.fileName, f.payload.length⟩ := by
    unfold buffered
    rw [hbody]
    exact parsePostData_files hcr hnul epilogue files hf
  obtain ⟨-, hstreamed, htrace⟩ := streamed_files header epilogue files pieces hcr hf hn hshort hbody
    hne h32 hpos hlen herr
  constructor
  · rw [hbuffered, show streamed = _ from hstreamed, List.map_map, List.map_map]
    rfl
  · rw [hbuffered, show (filesOf s.sink.trace).reverse = _ from htrace, List.map_map, List.map_map]
    rfl

/-- Three files, cut in the middle of the body. -/
def sampleForm : List FormFile :=
  [{ name := ascii "a", fileName := ascii "x.bin", contentType := some (ascii "text/plain")
     payload := ascii "one\r\n--" },
    { name := ascii "filename", fileName := ascii "y", contentType := none, payload := [] },
    { name := [], fileName := ascii "name", contentType := none, payload := [0, 13, 10, 45, 45, 255] }]

/-- The body of the form. -/
def sampleFormBody : List UInt8 :=
  encodeBody (ascii "--" ++ ascii "bound") [] (ascii "\r\n") (sampleForm.map FormFile.upload)

theorem sampleForm_valid : ∀ f ∈ sampleForm, f.Valid (ascii "--" ++ ascii "bound") := by
  intro f hf
  have hquoted : ∀ f ∈ sampleForm, ∀ c ∈ [34, 61, cr, lf, 0], c ∉ f.name ∧ c ∉ f.fileName := by
    decide +kernel
  refine ⟨?_, ?_, ?_, ?_, ?_⟩
  · exact ⟨(hquoted f hf 34 (by decide)).1, (hquoted f hf 61 (by decide)).1,
      (hquoted f hf cr (by decide)).1, (hquoted f hf lf (by decide)).1,
      (hquoted f hf 0 (by decide)).1⟩
  · exact ⟨(hquoted f hf 34 (by decide)).2, (hquoted f hf 61 (by decide)).2,
      (hquoted f hf cr (by decide)).2, (hquoted f hf lf (by decide)).2,
      (hquoted f hf 0 (by decide)).2⟩
  · revert f
    decide
  · revert f
    decide
  · revert f
    decide +kernel

theorem buffered_and_streamed_agree_form :
    (parsePostData (ascii "--" ++ ascii "bound")
        [sampleFormBody.take 100, sampleFormBody.drop 100].flatten).map
        (fun u => (u.name, u.length)) =
      ((postStreamFillUploadInfo (feedAll neverAborts
          (startPostStream { contentlenght := 270 } (ascii "--" ++ ascii "bound") false)
          [sampleFormBody.take 100, sampleFormBody.drop 100]).1).2).map
        (fun u => (u.name, u.length)) :=
  (buffered_and_streamed_agree { contentlenght := 270 } (ascii "bound") (ascii "\r\n") sampleForm
    [sampleFormBody.take 100, sampleFormBody.drop 100] (by decide) (by decide) sampleForm_valid
    (by decide) (by decide) (by decide +kernel) (by decide +kernel) (by decide +kernel) rfl
    (by decide +kernel) rfl).1

/-! ## A part header that is too long -/

/-- A part header that outgrows its buffer: the machine gives up, with nothing recorded. -/
theorem run_header_long (boundary : List UInt8) {ls : List (List UInt8)}
    (hplain : ∀ l ∈ ls, PlainLine l) (hlong : postStreamMaxPartHeader ≤ (headerText ls).length)
    (r : List UInt8) {m : Multipart} (hs : m.state = .partHeader)
    (hab : m.receiver.aborted = false) (hm : m.partHeader ++ r = headerText ls)
    (hroom : m.partHeader.length < postStreamMaxPartHeader) :
    (m.run boundary r).state = .error ∧ (m.run boundary r).receiver = m.receiver := by
  induction r generalizing m with
  | nil =>
      exfalso
      rw [List.append_nil] at hm
      rw [← hm] at hlong
      omega
  | cons c r ih =>
      have hbyte : m.step boundary c = m.headerByte c := by simp only [Multipart.step, hs]
      rw [Multipart.run_cons, hbyte, Multipart.headerByte]
      by_cases hfull : postStreamMaxPartHeader ≤ m.partHeader.length + 1
      · rw [if_pos ⟨hfull, hab⟩, run_of_final boundary _ r (Or.inl rfl)]
        exact ⟨rfl, rfl⟩
      · have hpush : pushHeaderByte m.partHeader c = m.partHeader ++ [c] := by
          rw [pushHeaderByte, if_neg (by omega)]
        have hsplit : m.partHeader ++ [c] ++ r = headerText ls := by simpa using hm
        have hmore : headerComplete (m.partHeader ++ [c]) = false := by
          rw [headerComplete, decide_eq_false_iff_not]
          rintro ⟨-, hend⟩
          -- an empty line before the end would be the end, but the end is too far
          have hu := List.take_append_drop ((m.partHeader ++ [c]).length - 4) (m.partHeader ++ [c])
          rw [hend] at hu
          have hwhole := headerText_end ls hplain _ (by rw [hu]; exact ⟨r, hsplit⟩)
          rw [hu] at hwhole
          rw [← hwhole, List.length_append, List.length_singleton] at hlong
          omega
        rw [if_neg (fun h => hfull h.1), hpush]
        dsimp only
        rw [hmore]
        have hroom' : (m.partHeader ++ [c]).length < postStreamMaxPartHeader := by
          rw [List.length_append, List.length_singleton]
          omega
        exact ih hs hab hsplit hroom'

/-- **A file whose part header is too long** is not reported by the stream. -/
theorem streamed_long_header (header : HttpRequestHeader) {b : List UInt8} (hcr : cr ∉ b)
    {f : FormFile} (hf : f.Valid (ascii "--" ++ b))
    (hlong : postStreamMaxPartHeader ≤ (headerText f.upload.header.lines).length)
    {body : List UInt8} (hbody : body = encodeBody (ascii "--" ++ b) [] [] [f.upload])
    (h32 : body.length < 2 ^ 32) (hpos : header.postBufferPos = 0)
    (hlen : header.contentlenght.toNat = body.length) :
    (postStreamFillUploadInfo (feedAll neverAborts
      (startPostStream header (ascii "--" ++ b) false) [body]).1).2 = [] := by
  set boundary := ascii "--" ++ b with hboundary
  have hcr' : cr ∉ boundary := by
    intro h
    rcases List.mem_append.mp h with h | h
    · revert h
      decide
    · exact hcr h
  have hne : boundary ≠ [] := by simp [hboundary, ascii]
  have hbody0 : body ≠ [] := by
    rw [hbody]
    simp [encodeBody]
  have hl2 : 2 ≤ boundary.length := by simp [hboundary, ascii]
  have hread := startPostStream_reading false hne hpos hlen
  have hview := feedAll_view hcr' hl2 h32 [body] (by simp) (by simpa using hbody0) 0 hread (by simp)
  rw [List.flatten_singleton] at hview
  set m₀ := (startPostStream header boundary false).view with hm₀
  -- the boundary and its CRLF
  have hfound := run_needle boundary boundary false .preamble
    (fun m c hm => step_preamble boundary m c hm) boundary [] m₀ rfl rfl rfl hne
  set m₁ : Multipart := { m₀ with hold := [], delimInData := false, state := .delimCheck } with hm₁
  set m₂ : Multipart := { m₁ with receiver := m₁.closed, hold := [], state := .afterBoundary } with hm₂
  -- the header
  obtain ⟨rest, hrest⟩ := lines_start f.upload.header.lines crlf
  have htext : headerText f.upload.header.lines = crlf ++ rest := hrest
  obtain ⟨c, rest', rfl⟩ : ∃ c y, rest = c :: y := by
    apply List.exists_cons_of_ne_nil
    rintro rfl
    rw [htext] at hlong
    revert hlong
    decide
  have hstep : m₂.run boundary (c :: rest') = m₂.afterBoundary.run boundary (c :: rest') := by
    rw [Multipart.run_cons, Multipart.run_cons]
    rfl
  obtain ⟨herror, hreceiver⟩ := run_header_long boundary hf.readable.plain hlong (c :: rest')
    (m := m₂.afterBoundary) rfl rfl htext.symm (by show 2 < _; decide)
  have hrun : m₀.run boundary body = m₂.afterBoundary.run boundary (c :: rest') := by
    rw [hbody, encodeBody, List.nil_append, Multipart.run_append, hfound, List.map_singleton,
      List.flatten_singleton, FileUpload.encode, htext, List.append_assoc, List.append_assoc,
      Multipart.run_append, run_crlf rfl rfl, ← hm₂, Multipart.run_append, hstep]
    exact run_of_final boundary _ _ (Or.inl herror)
  rw [hrun, Multipart.bodyEnd, if_pos herror] at hview
  have hparts : ((feedAll neverAborts (startPostStream header boundary false) [body]).1.sink.parts.map
      PostStreamPart.info) = [] := by
    have h := congrArg (fun r : Multipart × Int => r.1.receiver.parts) hview
    dsimp only at h
    rw [hreceiver] at h
    exact h
  have hnil := List.map_eq_nil_iff.mp hparts
  unfold postStreamFillUploadInfo
  split_ifs
  · rw [hnil]
    rfl
  · rfl

/-- A field with a name of 8200 bytes. -/
def longForm : FormFile where
  name := List.replicate 8200 97
  fileName := ascii "f"
  contentType := none
  payload := []

theorem longForm_valid : longForm.Valid (ascii "--" ++ ascii "b") := by
  have hname : ∀ {c : UInt8}, c ≠ 97 → c ∉ longForm.name := by
    intro c hc h
    exact hc (List.eq_of_mem_replicate h)
  refine ⟨⟨hname (by decide), hname (by decide), hname (by decide), hname (by decide),
    hname (by decide)⟩, ⟨?_, ?_, ?_, ?_, ?_⟩, ?_, ?_, ?_⟩
  all_goals decide

theorem FormFile.header_length (f : FormFile) (h : f.contentType = none) :
    (headerText f.upload.header.lines).length = f.name.length + f.fileName.length + 58 := by
  have htext : headerText f.upload.header.lines =
      crlf ++ (contentDispositionName ++ f.upload.header.disposition) ++ (crlf ++ crlf) := by
    simp [headerText, FilePartHeader.lines, FormFile.upload, h]
  have hcrlf : crlf.length = 2 := rfl
  have hfield : contentDispositionName.length = 21 := rfl
  have hfront : formDataFront.length = 17 := rfl
  have hquote : (ascii "\"; ").length = 3 := rfl
  have hkey : fileNameKey.length = 9 := rfl
  rw [htext, FormFile.disposition_eq]
  simp only [List.length_append, List.length_cons, List.length_nil, hcrlf, hfield, hfront, hquote,
    hkey]
  omega

theorem longForm_header : (headerText longForm.upload.header.lines).length = 8259 := by
  have hname : longForm.name.length = 8200 := List.length_replicate
  rw [FormFile.header_length longForm rfl, hname]
  rfl

/-- The buffered body gives a file, the streamed one none. -/
theorem buffered_and_streamed_differ :
    ¬ ∀ (header : HttpRequestHeader) (b epilogue : List UInt8) (files : List FormFile)
      (pieces : List (List UInt8)), cr ∉ b → 0 ∉ b → files ≠ [] →
      (∀ f ∈ files, f.Valid (ascii "--" ++ b)) → files.length ≤ postStreamMaxParts →
      pieces.flatten = encodeBody (ascii "--" ++ b) [] epilogue (files.map FormFile.upload) →
      (∀ p ∈ pieces, p ≠ []) → pieces.flatten.length < 2 ^ 32 → header.postBufferPos = 0 →
      header.contentlenght.toNat = pieces.flatten.length → header.error = false →
      (parsePostData (ascii "--" ++ b) pieces.flatten).map (fun u => (u.name, u.length)) =
        ((postStreamFillUploadInfo (feedAll neverAborts
          (startPostStream header (ascii "--" ++ b) false) pieces).1).2).map
          (fun u => (u.name, u.length)) := by
  intro h
  set body := encodeBody (ascii "--" ++ ascii "b") [] [] [longForm.upload] with hbody
  have hlength : body.length = 8269 := by
    rw [hbody, encodeBody, List.nil_append, List.map_singleton, List.flatten_singleton,
      FileUpload.encode]
    simp only [List.length_append, longForm_header]
    rfl
  have hvalid : ∀ f ∈ [longForm], f.Valid (ascii "--" ++ ascii "b") := by
    simpa using longForm_valid
  have hbuffered := parsePostData_files (b := ascii "b") (by decide) (by decide) [] [longForm] hvalid
  have hstreamed := streamed_long_header { contentlenght := 8269 } (b := ascii "b") (by decide)
    longForm_valid (by rw [longForm_header]; decide) hbody (by rw [hlength]; decide) rfl
    (by rw [hlength]; rfl)
  have hagree := h { contentlenght := 8269 } (ascii "b") [] [longForm] [body] (by decide) (by decide)
    (by simp) hvalid (by decide) (by rw [List.flatten_singleton]; rfl)
    (by
      intro p hp hnil
      rw [List.mem_singleton.mp hp] at hnil
      rw [hnil] at hlength
      cases hlength)
    (by rw [List.flatten_singleton, hlength]; decide) rfl
    (by rw [List.flatten_singleton, hlength]; rfl) rfl
  rw [hstreamed, List.flatten_singleton, hbody] at hagree
  rw [show [longForm.upload] = [longForm].map FormFile.upload from rfl, hbuffered] at hagree
  cases hagree

end CWebUI.Post
