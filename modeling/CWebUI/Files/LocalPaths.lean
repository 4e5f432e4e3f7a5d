import CWebUI.Basic.StringBuffer

set_option autoImplicit false

/-! # The paths of local files

`add_local_file_system_dir` and `search_file_dir` (`system_file_access_fs.c`). A directory is kept
under an alias, and a request for a name that starts with the alias is looked up in it. Both
functions put a path together in a buffer of 1000 bytes on the stack, by `strncpy` and `strncat`
with bounds of their own. Nothing is known about the bytes of such a buffer before.

A path that is opened is the directory, a slash and the rest of the name if and only if directories
are shorter than 990 bytes, and the paths that are tried have room in the buffer. Nothing in the
code sees to that.
-/

namespace CWebUI.Files

open ByteString

/-! ## The model -/

/-- What ends a run: an access behind the end of the buffer of `add_local_file_system_dir`, or of
that of `search_file_dir`. -/
inductive PathFault where
  | buffer (position : Nat)
  | realPath (position : Nat)
  deriving DecidableEq, Repr

/-- A string, without its terminator. -/
structure CText where
  bytes : List UInt8
  clean : (0 : UInt8) ∉ bytes

/-- `char buffer[1000]` -/
structure StackBuffer where
  bytes : List UInt8
  size : bytes.length = 1000

/-- The arguments of `add_local_file_system_dir`. -/
structure DirCall where
  aliasName : CText
  dir : CText
  useCache : Int
  authOnly : Int

/-- `struct dir_info`, the data of an element of `file_dirs`. The name of the element is the
alias. -/
structure DirInfo where
  aliasName : List UInt8
  dir : List UInt8
  useRamCache : Bool
  authOnly : Int
  deriving DecidableEq, Repr

/-- `add_local_file_system_dir` on the elements of `file_dirs`. Without a result the program has
come to `exit(0)`. -/
def addLocalFileSystemDir (buffer : StackBuffer) (fileDirs : List DirInfo) (call : DirCall) :
    Except PathFault (Option (List DirInfo)) := do
  if fileDirs.any fun info => info.aliasName = call.aliasName.bytes then return none
  else
    let b ← StringBuffer.strncpy .buffer buffer.bytes call.dir.bytes 990
    -- the byte that is compared is the terminator
    let last ← Checked.get .buffer b (← StringBuffer.strlen .buffer b)
    let b ← if last ≠ 47 then StringBuffer.strcat .buffer b [47] else .ok b
    return some (fileDirs ++ [{
      aliasName := call.aliasName.bytes
      dir := cString b
      useRamCache := call.useCache = 1
      authOnly := call.authOnly }])

/-- What a search has done: the paths that it passed to `PlatformOpenDataReadStream`, the directory
in which it found the file, and `real_path`. -/
structure DirSearch where
  opened : List (List UInt8)
  found : Option DirInfo
  realPath : List UInt8
  deriving DecidableEq, Repr

/-- The loop of `search_file_dir`. `opens` says for which paths there is a file. -/
def searchFileDir (opens : List UInt8 → Bool) (name : List UInt8) :
    List DirInfo → List UInt8 → Except PathFault DirSearch
  | [], realPath => .ok ⟨[], none, realPath⟩
  | info :: fileDirs, realPath => do
      let realPath ← Checked.put .realPath realPath 0 0
      if info.aliasName <+: name ∧ info.aliasName.length < name.length then
        let realPath ← StringBuffer.strncpy .realPath realPath info.dir 999
        let realPath ← Checked.put .realPath realPath 999 0
        let l := 1000 - (← StringBuffer.strlen .realPath realPath)
        let realPath ← StringBuffer.strncat .realPath realPath
          (name.drop info.aliasName.length) l
        if opens (cString realPath) then return ⟨[cString realPath], some info, realPath⟩
        else
          let rest ← searchFileDir opens name fileDirs realPath
          return { rest with opened := cString realPath :: rest.opened }
      else searchFileDir opens name fileDirs realPath

/-- `getFileInformation` up to its search: slashes at the start of the name are passed over. -/
def searchFileInformation (opens : List UInt8 → Bool) (nameTmp : StackBuffer)
    (fileDirs : List DirInfo) (name : CText) : Except PathFault DirSearch :=
  searchFileDir opens (name.bytes.dropWhile (· = 47)) fileDirs nameTmp.bytes

/-- Calls of `add_local_file_system_dir`, each with the buffer that it gets. -/
def addDirs (garbage : Nat → StackBuffer) :
    Nat → List DirCall → List DirInfo → Except PathFault (Option (List DirInfo))
  | _, [], fileDirs => .ok (some fileDirs)
  | i, call :: calls, fileDirs => do
      match ← addLocalFileSystemDir (garbage i) fileDirs call with
      | none => return none
      | some fileDirs => addDirs garbage (i + 1) calls fileDirs

/-- A program that adds directories and then gets a request. -/
def requestFile (garbage : Nat → StackBuffer) (opens : List UInt8 → Bool) (calls : List DirCall)
    (name : CText) : Except PathFault (Option DirSearch) := do
  match ← addDirs garbage 0 calls [] with
  | none => return none
  | some fileDirs =>
      let search ← searchFileInformation opens (garbage calls.length) fileDirs name
      return some search

/-! ## What a path should be -/

/-- The alias matches a name, and leaves some of it. -/
def DirCall.Matches (call : DirCall) (name : List UInt8) : Prop :=
  call.aliasName.bytes <+: name ∧ call.aliasName.bytes.length < name.length

/-- The directory, a slash, and the rest of the name behind the alias. -/
def DirCall.pathOf (call : DirCall) (name : List UInt8) : List UInt8 :=
  call.dir.bytes ++ 47 :: name.drop call.aliasName.bytes.length

/-- The name that is looked up for a request. -/
def lookedUp (name : CText) : List UInt8 := name.bytes.dropWhile (· = 47)

/-- **Complete paths**: whatever the buffers hold before, no access is outside of one, and a path
that is opened is that of a directory whose alias matches. -/
def PathsComplete (opens : List UInt8 → Bool) (calls : List DirCall) (name : CText) : Prop :=
  ∀ garbage, ∃ r, requestFile garbage opens calls name = .ok r ∧
    ∀ search, r = some search → ∀ path ∈ search.opened, ∃ call ∈ calls,
      call.Matches (lookedUp name) ∧ path = call.pathOf (lookedUp name)

/-- The path of a directory is tried: no path that is tried before it opens. -/
def Tried (opens : List UInt8 → Bool) (name : List UInt8) (before : List DirCall)
    (call : DirCall) : Prop :=
  call.Matches name ∧ ∀ c ∈ before, c.Matches name → opens (c.pathOf name) = false

/-- The aliases of a list of calls. -/
def aliases (calls : List DirCall) : List (List UInt8) := calls.map fun c => c.aliasName.bytes

/-- **The lengths with which paths are complete.** -/
structure PathsFit (opens : List UInt8 → Bool) (calls : List DirCall) (name : CText) : Prop where
  /-- A directory that is added is shorter than 990 bytes. Behind a repeated alias none is. -/
  dirs : ∀ pre call post, calls = pre ++ call :: post →
    (aliases (pre ++ [call])).Nodup → call.dir.bytes.length < 990
  /-- A path that is tried has room in a buffer of 1000 bytes. -/
  paths : (aliases calls).Nodup → ∀ pre call post, calls = pre ++ call :: post →
    Tried opens (lookedUp name) pre call → (call.pathOf (lookedUp name)).length < 1000

/-! ## Adding directories -/

/-- The record of a directory, with its slash. -/
def DirCall.info (call : DirCall) : DirInfo where
  aliasName := call.aliasName.bytes
  dir := call.dir.bytes ++ [47]
  useRamCache := call.useCache = 1
  authOnly := call.authOnly

theorem any_alias (pre : List DirCall) (call : DirCall) :
    ((pre.map DirCall.info).any fun info => info.aliasName = call.aliasName.bytes) = true ↔
      call.aliasName.bytes ∈ aliases pre := by
  rw [List.any_map, List.any_eq_true, aliases, List.mem_map]
  constructor
  · rintro ⟨c, hc, heq⟩
    exact ⟨c, hc, of_decide_eq_true heq⟩
  · rintro ⟨c, hc, heq⟩
    exact ⟨c, hc, decide_eq_true heq⟩

section Add

variable {buffer : StackBuffer} {pre : List DirCall} {call : DirCall}

/-- A repeated alias ends the program. -/
theorem addLocalFileSystemDir_exit (h : call.aliasName.bytes ∈ aliases pre) :
    addLocalFileSystemDir buffer (pre.map DirCall.info) call = .ok none := by
  rw [addLocalFileSystemDir, if_pos ((any_alias pre call).mpr h)]
  rfl

/-- A directory of less than 990 bytes is kept with a slash behind it. -/
theorem addLocalFileSystemDir_new (h : call.aliasName.bytes ∉ aliases pre)
    (hlt : call.dir.bytes.length < 990) :
    addLocalFileSystemDir buffer (pre.map DirCall.info) call =
      .ok (some ((pre ++ [call]).map DirCall.info)) := by
  have hsize := buffer.size
  obtain ⟨b, hcopy, hb, hdir⟩ := @StringBuffer.strncpy_eq _ PathFault.buffer buffer.bytes
    call.dir.bytes 990 call.dir.clean hlt (by omega)
  have hlast : Checked.get PathFault.buffer b call.dir.bytes.length = .ok 0 := by
    obtain ⟨behind, rfl⟩ := hdir.front
    apply Checked.get_eq
    simp
  obtain ⟨b', hslash, hb', hholds⟩ := @StringBuffer.Holds.strcat _ PathFault.buffer b
    call.dir.bytes [47] hdir (by decide) (by rw [hb, hsize, List.length_singleton]; omega)
  rw [addLocalFileSystemDir, if_neg (mt (any_alias pre call).mp h), Checked.bind_ok hcopy,
    Checked.bind_ok hdir.strlen, Checked.bind_ok hlast, if_pos (by decide), Checked.bind_ok hslash]
  dsimp only
  rw [hholds.cString, List.map_append]
  rfl

/-- A longer directory fills the buffer without a terminator. Where the buffer has no null byte
behind that either, its end is passed. -/
theorem addLocalFileSystemDir_long (h : call.aliasName.bytes ∉ aliases pre)
    (hlong : 990 ≤ call.dir.bytes.length) (hgarbage : (0 : UInt8) ∉ buffer.bytes) :
    addLocalFileSystemDir buffer (pre.map DirCall.info) call = .error (.buffer 1000) := by
  have hsize := buffer.size
  have hcopy := @StringBuffer.strncpy_cut _ PathFault.buffer buffer.bytes call.dir.bytes 990 hlong
    (by omega)
  have hclean : (0 : UInt8) ∉ call.dir.bytes.take 990 ++ buffer.bytes.drop 990 := by
    rw [List.mem_append]
    rintro (hmem | hmem)
    · exact call.dir.clean (List.mem_of_mem_take hmem)
    · exact hgarbage (List.mem_of_mem_drop hmem)
  have hlen : (call.dir.bytes.take 990 ++ buffer.bytes.drop 990).length = 1000 := by
    rw [List.length_append, List.length_take, List.length_drop]
    omega
  have hend := @StringBuffer.strlen_unterminated _ PathFault.buffer _ hclean
  rw [hlen] at hend
  rw [addLocalFileSystemDir, if_neg (mt (any_alias pre call).mp h), Checked.bind_ok hcopy,
    Checked.bind_error hend]

end Add

/-- A buffer without a null byte. -/
def fullBuffer : StackBuffer where
  bytes := List.replicate 1000 1
  size := List.length_replicate

theorem fullBuffer_clean : (0 : UInt8) ∉ fullBuffer.bytes := by
  rw [fullBuffer, List.mem_replicate]
  exact fun h => absurd h.2 (by decide)

/-- With a full buffer, a directory that is added is short. -/
theorem short_of_added {pre : List DirCall} {call : DirCall} {r : Option (List DirInfo)}
    (h : call.aliasName.bytes ∉ aliases pre)
    (hrun : addLocalFileSystemDir fullBuffer (pre.map DirCall.info) call = .ok r) :
    call.dir.bytes.length < 990 := by
  by_contra hlong
  rw [addLocalFileSystemDir_long h (Nat.not_lt.mp hlong) fullBuffer_clean] at hrun
  cases hrun

theorem nodup_aliases_append {pre post : List DirCall} (h : (aliases (pre ++ post)).Nodup) :
    (aliases pre).Nodup := by
  rw [aliases, List.map_append] at h
  exact (List.nodup_append.mp h).1

theorem nodup_aliases_snoc {pre : List DirCall} {call : DirCall} (h : (aliases pre).Nodup) :
    (aliases (pre ++ [call])).Nodup ↔ call.aliasName.bytes ∉ aliases pre := by
  rw [aliases, List.map_append, List.map_singleton, List.nodup_append]
  constructor
  · rintro ⟨-, -, hne⟩ hmem
    exact hne _ hmem _ (List.mem_singleton_self _) rfl
  · intro hnot
    refine ⟨h, by simp, fun a ha b hb hab => hnot ?_⟩
    rw [← List.mem_singleton.mp hb, ← hab]
    exact ha

/-- **All directories are kept**, or the program ends at a repeated alias. `pre` has been added
already. -/
theorem addDirs_eq (garbage : Nat → StackBuffer) (i : Nat) (pre calls : List DirCall)
    (hpre : (aliases pre).Nodup)
    (hdirs : ∀ mid call post, calls = mid ++ call :: post →
      (aliases (pre ++ (mid ++ [call]))).Nodup → call.dir.bytes.length < 990) :
    addDirs garbage i calls (pre.map DirCall.info) =
      .ok (if (aliases (pre ++ calls)).Nodup then some ((pre ++ calls).map DirCall.info)
        else none) := by
  induction calls generalizing pre i with
  | nil => rw [addDirs, List.append_nil, if_pos hpre]
  | cons call calls ih =>
      by_cases hmem : call.aliasName.bytes ∈ aliases pre
      · have hnot : ¬ (aliases (pre ++ call :: calls)).Nodup := by
          intro hall
          rw [List.append_cons] at hall
          exact (nodup_aliases_snoc hpre).mp (nodup_aliases_append hall) hmem
        rw [addDirs, Checked.bind_ok (addLocalFileSystemDir_exit hmem), if_neg hnot]
        rfl
      · have hsnoc := (nodup_aliases_snoc hpre).mpr hmem
        have hlt := hdirs [] call calls rfl hsnoc
        have hrest := ih (i + 1) (pre ++ [call]) hsnoc fun mid c post hsplit hnodup => by
          apply hdirs (call :: mid) c post
          · rw [hsplit, List.cons_append]
          · rw [List.cons_append, List.append_cons]
            exact hnodup
        rw [List.append_cons pre call calls, addDirs,
          Checked.bind_ok (addLocalFileSystemDir_new hmem hlt)]
        exact hrest

/-- With buffers that are full, directories are added as long as they are short. -/
theorem addDirs_short (i : Nat) (pre calls : List DirCall) {r : Option (List DirInfo)}
    (hrun : addDirs (fun _ => fullBuffer) i calls (pre.map DirCall.info) = .ok r)
    (hpre : (aliases pre).Nodup) {mid post : List DirCall} {call : DirCall}
    (hsplit : calls = mid ++ call :: post) (hnodup : (aliases (pre ++ (mid ++ [call]))).Nodup) :
    call.dir.bytes.length < 990 := by
  induction mid generalizing pre i calls with
  | nil =>
      have hnew := (nodup_aliases_snoc hpre).mp hnodup
      rw [hsplit, List.nil_append, addDirs] at hrun
      obtain ⟨r, hadd, -⟩ := Checked.of_bind_ok hrun
      exact short_of_added hnew hadd
  | cons c mid ih =>
      rw [List.cons_append, List.append_cons] at hnodup
      have hsnoc := nodup_aliases_append hnodup
      have hnew := (nodup_aliases_snoc hpre).mp hsnoc
      rw [hsplit, List.cons_append, addDirs] at hrun
      obtain ⟨r, hadd, -⟩ := Checked.of_bind_ok hrun
      rw [Checked.bind_ok (addLocalFileSystemDir_new hnew (short_of_added hnew hadd))] at hrun
      exact ih (i + 1) (pre ++ [c]) _ hrun hsnoc rfl hnodup

/-! ## One directory of a search -/

section Search

variable (opens : List UInt8 → Bool) {name realPath : List UInt8} {call : DirCall}

/-- An alias that does not match leaves an empty string in the buffer. -/
theorem searchFileDir_other (hno : ¬ call.Matches name) (hsize : realPath.length = 1000)
    (fileDirs : List DirInfo) : searchFileDir opens name (call.info :: fileDirs) realPath =
      searchFileDir opens name fileDirs (realPath.set 0 0) := by
  have hput : Checked.put PathFault.realPath realPath 0 0 = .ok (realPath.set 0 0) :=
    Checked.put_eq (by omega)
  rw [searchFileDir, Checked.bind_ok hput, if_neg]
  exact hno

/-- The directory is copied to the buffer. -/
theorem copyDir_eq (hlt : call.dir.bytes.length < 990) (hsize : realPath.length = 1000) :
    ∃ b b', Checked.put PathFault.realPath realPath 0 0 = .ok (realPath.set 0 0) ∧
      StringBuffer.strncpy PathFault.realPath (realPath.set 0 0) call.info.dir 999 = .ok b ∧
      Checked.put PathFault.realPath b 999 0 = .ok b' ∧ b'.length = 1000 ∧
      StringBuffer.Holds b' call.info.dir := by
  have hlen : call.info.dir.length = call.dir.bytes.length + 1 := List.length_append
  have hclean : (0 : UInt8) ∉ call.info.dir := by
    rw [DirCall.info, List.mem_append]
    exact fun h => h.elim call.dir.clean (by decide)
  have hset : (realPath.set 0 0).length = 1000 := by rw [List.length_set, hsize]
  obtain ⟨b, hcopy, hb, hdir⟩ := @StringBuffer.strncpy_eq _ PathFault.realPath
    (realPath.set 0 0) call.info.dir 999 hclean (by omega) (by omega)
  refine ⟨b, b.set 999 0, Checked.put_eq (by omega), hcopy, Checked.put_eq (by omega), ?_, ?_⟩
  · rw [List.length_set, hb, hset]
  · exact hdir.set (by omega) 0

theorem pathOf_length (call : DirCall) (name : List UInt8) : (call.pathOf name).length =
    call.info.dir.length + (name.drop call.aliasName.bytes.length).length := by
  simp only [DirCall.pathOf, DirCall.info, List.length_append, List.length_cons, List.length_nil]
  omega

/-- A path that has room in the buffer is opened, and the search goes on if there is no file. -/
theorem searchFileDir_fits (hmatch : call.Matches name) (hname : (0 : UInt8) ∉ name)
    (hlt : call.dir.bytes.length < 990) (hsize : realPath.length = 1000)
    (hfit : (call.pathOf name).length < 1000) :
    ∃ b, b.length = 1000 ∧ ∀ fileDirs, searchFileDir opens name (call.info :: fileDirs) realPath =
      if opens (call.pathOf name) then .ok ⟨[call.pathOf name], some call.info, b⟩
      else do
        let rest ← searchFileDir opens name fileDirs b
        return { rest with opened := call.pathOf name :: rest.opened } := by
  obtain ⟨b, b', hput, hcopy, hend, hb', hdir⟩ := copyDir_eq hlt hsize
  rw [pathOf_length] at hfit
  have hrest : (0 : UInt8) ∉ name.drop call.aliasName.bytes.length :=
    fun h => hname (List.mem_of_mem_drop h)
  obtain ⟨path, hcat, hlen, hpath⟩ := @StringBuffer.Holds.strncat _ PathFault.realPath b'
    call.info.dir (name.drop call.aliasName.bytes.length) (1000 - call.info.dir.length) hdir hrest
    (by omega) (by omega)
  have heq : cString path = call.pathOf name := by
    rw [hpath.cString, DirCall.pathOf, List.append_cons]
    rfl
  have hinfo : call.info.aliasName <+: name ∧ call.info.aliasName.length < name.length := hmatch
  refine ⟨path, hlen.trans hb', fun fileDirs => ?_⟩
  rw [searchFileDir, Checked.bind_ok hput, if_pos hinfo, Checked.bind_ok hcopy,
    Checked.bind_ok hend, Checked.bind_ok hdir.strlen]
  refine (Checked.bind_ok hcat).trans ?_
  rw [heq]
  rfl

/-- For any other path the null byte of `strncat` is written behind the buffer. -/
theorem searchFileDir_outside (hmatch : call.Matches name) (hlt : call.dir.bytes.length < 990)
    (hsize : realPath.length = 1000) (hlong : 1000 ≤ (call.pathOf name).length)
    (fileDirs : List DirInfo) : searchFileDir opens name (call.info :: fileDirs) realPath =
      .error (.realPath 1000) := by
  obtain ⟨b, b', hput, hcopy, hend, hb', hdir⟩ := copyDir_eq hlt hsize
  rw [pathOf_length] at hlong
  have hcat := @StringBuffer.Holds.strncat_outside _ PathFault.realPath b' call.info.dir
    (name.drop call.aliasName.bytes.length) (1000 - call.info.dir.length) hdir (by omega) (by omega)
  have hinfo : call.info.aliasName <+: name ∧ call.info.aliasName.length < name.length := hmatch
  rw [hb'] at hcat
  rw [searchFileDir, Checked.bind_ok hput, if_pos hinfo, Checked.bind_ok hcopy,
    Checked.bind_ok hend, Checked.bind_ok hdir.strlen]
  exact Checked.bind_error hcat

/-! ## A whole search -/

variable {opens} in
/-- One more directory before the one that is tried. -/
theorem tried_cons {d : DirCall} {pre : List DirCall} : Tried opens name (d :: pre) call ↔
    (d.Matches name → opens (d.pathOf name) = false) ∧ Tried opens name pre call := by
  rw [Tried, Tried, List.forall_mem_cons]
  constructor
  · rintro ⟨hmatch, hd, hpre⟩
    exact ⟨hd, hmatch, hpre⟩
  · rintro ⟨hd, hmatch, hpre⟩
    exact ⟨hmatch, hd, hpre⟩

/-- A search in which all paths that are tried have room opens complete paths only. -/
theorem searchFileDir_complete (hname : (0 : UInt8) ∉ name) (calls : List DirCall)
    (hsize : realPath.length = 1000) (hdirs : ∀ call ∈ calls, call.dir.bytes.length < 990)
    (hpaths : ∀ pre call post, calls = pre ++ call :: post → Tried opens name pre call →
      (call.pathOf name).length < 1000) :
    ∃ search, searchFileDir opens name (calls.map DirCall.info) realPath = .ok search ∧
      ∀ path ∈ search.opened, ∃ call ∈ calls, call.Matches name ∧ path = call.pathOf name := by
  induction calls generalizing realPath with
  | nil => exact ⟨_, rfl, by simp⟩
  | cons call calls ih =>
      have hrest := fun c hc => hdirs c (List.mem_cons_of_mem call hc)
      -- where this directory does not end the search, the paths behind it are tried as before
      have hnext : (call.Matches name → opens (call.pathOf name) = false) →
          ∀ pre c post, calls = pre ++ c :: post → Tried opens name pre c →
            (c.pathOf name).length < 1000 := by
        intro hclosed pre c post hsplit htried
        apply hpaths (call :: pre) c post
        · rw [hsplit, List.cons_append]
        · exact tried_cons.mpr ⟨hclosed, htried⟩
      by_cases hmatch : call.Matches name
      · have hfit := hpaths [] call calls rfl ⟨hmatch, by simp⟩
        obtain ⟨b, hb, hrun⟩ := searchFileDir_fits opens hmatch hname
          (hdirs call List.mem_cons_self) hsize hfit
        rw [List.map_cons, hrun]
        by_cases hopen : opens (call.pathOf name) = true
        · rw [if_pos hopen]
          refine ⟨_, rfl, fun path hpath => ?_⟩
          exact ⟨call, List.mem_cons_self, hmatch, List.mem_singleton.mp hpath⟩
        · obtain ⟨search, hsearch, hopened⟩ :=
            ih hb hrest (hnext fun _ => Bool.eq_false_iff.mpr hopen)
          rw [if_neg hopen, Checked.bind_ok hsearch]
          refine ⟨_, rfl, fun path hpath => ?_⟩
          rcases List.mem_cons.mp hpath with rfl | hpath
          · exact ⟨call, List.mem_cons_self, hmatch, rfl⟩
          · obtain ⟨c, hc, hspec⟩ := hopened path hpath
            exact ⟨c, List.mem_cons_of_mem call hc, hspec⟩
      · have hset : (realPath.set 0 0).length = 1000 := by rw [List.length_set, hsize]
        obtain ⟨search, hsearch, hopened⟩ := ih hset hrest (hnext fun h => absurd h hmatch)
        rw [List.map_cons, searchFileDir_other opens hmatch hsize]
        refine ⟨search, hsearch, fun path hpath => ?_⟩
        obtain ⟨c, hc, hspec⟩ := hopened path hpath
        exact ⟨c, List.mem_cons_of_mem call hc, hspec⟩

/-- A search that stays in its buffer has room for every path that it tries. -/
theorem searchFileDir_room (hname : (0 : UInt8) ∉ name) {calls pre post : List DirCall}
    {call : DirCall} (hsize : realPath.length = 1000)
    (hdirs : ∀ call ∈ calls, call.dir.bytes.length < 990) {search : DirSearch}
    (hrun : searchFileDir opens name (calls.map DirCall.info) realPath = .ok search)
    (hsplit : calls = pre ++ call :: post) (htried : Tried opens name pre call) :
    (call.pathOf name).length < 1000 := by
  induction pre generalizing calls realPath search with
  | nil =>
      by_contra hlong
      rw [hsplit, List.nil_append, List.map_cons, searchFileDir_outside opens htried.1 _ hsize
        (Nat.not_lt.mp hlong)] at hrun
      · cases hrun
      · exact hdirs call (by rw [hsplit]; simp)
  | cons c pre ih =>
      obtain ⟨hclosed, hlater⟩ := tried_cons.mp htried
      have hrest : ∀ d ∈ pre ++ call :: post, d.dir.bytes.length < 990 := by
        intro d hd
        apply hdirs d
        rw [hsplit]
        exact List.mem_cons_of_mem c hd
      have hc := hdirs c (by rw [hsplit]; simp)
      rw [hsplit, List.cons_append, List.map_cons] at hrun
      by_cases hmatch : c.Matches name
      · by_cases hfit : (c.pathOf name).length < 1000
        · obtain ⟨b, hb, heq⟩ := searchFileDir_fits opens hmatch hname hc hsize hfit
          rw [heq, if_neg (by rw [hclosed hmatch]; decide)] at hrun
          obtain ⟨rest, hsearch, -⟩ := Checked.of_bind_ok hrun
          exact ih hb hrest hsearch rfl hlater
        · rw [searchFileDir_outside opens hmatch hc hsize (Nat.not_lt.mp hfit)] at hrun
          cases hrun
      · rw [searchFileDir_other opens hmatch hsize] at hrun
        exact ih (by rw [List.length_set, hsize]) hrest hrun rfl hlater

end Search

/-! ## Requests -/

variable {opens : List UInt8 → Bool} {calls : List DirCall} {name : CText}

theorem lookedUp_clean (name : CText) : (0 : UInt8) ∉ lookedUp name :=
  fun h => name.clean ((List.dropWhile_suffix _).subset h)

/-- Without a repeated alias all directories are added. -/
theorem short_of_nodup
    (hdirs : ∀ pre call post, calls = pre ++ call :: post →
      (aliases (pre ++ [call])).Nodup → call.dir.bytes.length < 990)
    (hnodup : (aliases calls).Nodup) : ∀ call ∈ calls, call.dir.bytes.length < 990 := by
  intro call hcall
  obtain ⟨pre, post, hsplit⟩ := List.append_of_mem hcall
  apply hdirs pre call post hsplit
  rw [hsplit, List.append_cons] at hnodup
  exact nodup_aliases_append hnodup

/-- With lengths that fit, paths are complete. -/
theorem PathsFit.complete (h : PathsFit opens calls name) : PathsComplete opens calls name := by
  intro garbage
  have hadd := addDirs_eq garbage 0 [] calls List.nodup_nil h.dirs
  rw [List.nil_append] at hadd
  rw [requestFile]
  by_cases hnodup : (aliases calls).Nodup
  · rw [if_pos hnodup] at hadd
    obtain ⟨search, hsearch, hopened⟩ := searchFileDir_complete opens (lookedUp_clean name) calls
      (garbage calls.length).size (short_of_nodup h.dirs hnodup) (h.paths hnodup)
    refine ⟨some search, (Checked.bind_ok hadd).trans (Checked.bind_ok hsearch), ?_⟩
    intro s hs
    obtain rfl := Option.some.inj hs
    exact hopened
  · rw [if_neg hnodup] at hadd
    refine ⟨none, Checked.bind_ok hadd, fun s hs => ?_⟩
    cases hs

/-- Where paths are complete, the lengths fit: with buffers that are full, a directory that is too
long or a path without room leads behind the end of one. -/
theorem PathsComplete.fit (h : PathsComplete opens calls name) : PathsFit opens calls name := by
  obtain ⟨r, hrun, -⟩ := h fun _ => fullBuffer
  rw [requestFile] at hrun
  obtain ⟨added, hadd, hsearch⟩ := Checked.of_bind_ok hrun
  have hdirs : ∀ pre call post, calls = pre ++ call :: post →
      (aliases (pre ++ [call])).Nodup → call.dir.bytes.length < 990 :=
    fun pre call post hsplit hnodup => addDirs_short 0 [] calls hadd List.nodup_nil hsplit hnodup
  refine ⟨hdirs, fun hnodup pre call post hsplit htried => ?_⟩
  have hall := addDirs_eq (fun _ => fullBuffer) 0 [] calls List.nodup_nil hdirs
  rw [List.nil_append, if_pos hnodup, List.map_nil, hadd] at hall
  obtain rfl := Except.ok.inj hall
  obtain ⟨search, hfound, -⟩ := Checked.of_bind_ok hsearch
  exact searchFileDir_room opens (lookedUp_clean name) fullBuffer.size (short_of_nodup hdirs hnodup)
    hfound hsplit htried

/-- **Paths are complete if and only if the lengths fit**: every directory that is added is shorter
than 990 bytes, and every path that is tried has room in the buffer. -/
theorem pathsComplete_iff (opens : List UInt8 → Bool) (calls : List DirCall) (name : CText) :
    PathsComplete opens calls name ↔ PathsFit opens calls name :=
  ⟨PathsComplete.fit, PathsFit.complete⟩

/-- A text of one letter. -/
def lettersText (n : Nat) (c : UInt8) (hc : c ≠ 0) : CText where
  bytes := List.replicate n c
  clean := by
    rw [List.mem_replicate]
    exact fun h => hc h.2.symm

/-- A directory of 600 bytes, under the empty alias. -/
def longDir : DirCall where
  aliasName := ⟨[], by simp⟩
  dir := lettersText 600 100 (by decide)
  useCache := 0
  authOnly := 0

/-- With a name of 511 bytes the path has 1112 bytes. -/
theorem pathsComplete_fails : ¬ ∀ (opens : List UInt8 → Bool) (calls : List DirCall)
    (name : CText), name.bytes.length ≤ 511 → PathsComplete opens calls name := by
  intro hall
  have hname : lookedUp (lettersText 511 110 (by decide)) = List.replicate 511 110 :=
    List.dropWhile_cons_of_neg (by decide)
  have hmatch : longDir.Matches (List.replicate 511 110) := by
    refine ⟨List.nil_prefix, ?_⟩
    rw [List.length_replicate]
    exact Nat.zero_lt_succ 510
  have hfit := (hall (fun _ => true) [longDir] (lettersText 511 110 (by decide))
    (Nat.le_of_eq List.length_replicate)).fit
  have hlength := hfit.paths (by decide) [] longDir [] rfl ⟨hname ▸ hmatch, by simp⟩
  have hdir : longDir.info.dir.length = 600 + 1 := by
    show (List.replicate 600 (100 : UInt8) ++ [47]).length = 600 + 1
    rw [List.length_append, List.length_replicate]
    rfl
  have halias : longDir.aliasName.bytes.length = 0 := rfl
  rw [pathOf_length, hname, hdir, List.length_drop, List.length_replicate, halias] at hlength
  omega

end CWebUI.Files
