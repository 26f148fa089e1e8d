import RustCommon.Raft.FileNames

/-!
# raft の message file の一覧と `MessageIterator`

`raft/mod.rs` の `FileCollection::add_message_file` が作る message file の一覧と、
`MessageIterator` がその一覧を使うところを書く。一覧から最初の file を選ぶのが `find_starting_file`、
今の file を読み終えたときに次の file を探すのが `next` である。

* file の中身を読むところ（`MessageFileStore` の `open`、`read`、`read_new`）は src にない
  `crate::file` にある。ここでは結果だけを外から与える。`MessageIterator` は `read_new` を、
  位置から結果への関数として持つ。
* `usize` と `u32` の算術は、overflow の検査がある build（debug）では panic し、
  ない build（release）では回る。どちらの build かは引数 `overflowChecks` で選ぶ。panic は `none` で表す。
* `Mutex::lock().unwrap()` が panic するのは、別の thread が lock を持ったまま panic したときだけである。
  この場合は書かない。

## 一覧の並び

`add_message_file` は file を末尾に足してから `Vec::sort` で `file_id` の順に並べ直す
（`addMessageFile_sorted`）。`message_id_start` には file の最初の message id を入れるつもりである。
しかし読む closure は `move` なので `msg_id` の複製に書き、外の `msg_id` は 0 のまま残る。
だから一覧のどの file も `message_id_start` が 0 になる。`find_starting_file` は、どの
`start_message_id` に対しても最後の file を選ぶ（`findStartingFile_addMessageFiles`）。

## 後ろ向きの探索

`next` は、今の file を読み終えて `read_new` が `NoMessage` を返すと、一覧を後ろから辿って
`current_file_id + 1` の file を探そうとする。ループは `for m in 0..len` で、添字は
`i = m - length`（`length = len - 1`）である。`m < length` ならこの引き算は負になる。
debug の build では引き算そのものが panic する。release の build では回った添字が一覧の外を指し、
`get(i).unwrap()` が panic する。だから file が二つ以上あれば、最初の周で必ず panic する
（`messageIterator_next_no_message`）。file が一つのときだけ、探索は意図どおりに答える。
-/

namespace RustCommon.Raft

/-! ## 算術 -/

/-- `usize` の引き算 `a - b`。`a`、`b` は `usize` の値（`2 ^ 64` 未満）。負になるとき、
overflow の検査があれば panic し、なければ `2 ^ 64` を法として回る。 -/
def usizeSub (overflowChecks : Bool) (a b : Nat) : Option Nat :=
  if b ≤ a then some (a - b)
  else if overflowChecks then none
  else some (a + 2 ^ 64 - b)

/-- `u32` の足し算。`2 ^ 32` を超えるとき、overflow の検査があれば panic し、なければ回る。 -/
def addU32 (overflowChecks : Bool) (a b : UInt32) : Option UInt32 :=
  if overflowChecks ∧ 2 ^ 32 ≤ a.toNat + b.toNat then none else some (a + b)

theorem usizeSub_of_le (overflowChecks : Bool) {a b : Nat} (h : b ≤ a) :
    usizeSub overflowChecks a b = some (a - b) := if_pos h

theorem addU32_one_of_lt (overflowChecks : Bool) {a : UInt32} (h : a.toNat + 1 < 2 ^ 32) :
    addU32 overflowChecks a 1 = some (a + 1) :=
  if_neg fun h' => absurd h'.2 (Nat.not_le_of_lt h)

theorem add_one_ne_self (x : UInt32) : x + 1 ≠ x := fun h => by
  have := congrArg UInt32.toBitVec h
  simp only [UInt32.add_def] at this
  have h1 : (UInt32.toBitVec 1).toNat = 1 := rfl
  bv_omega

/-! ## `crate::file` の結果 -/

/-- `std::io::Error`。中身は見ない。 -/
structure IoError
deriving DecidableEq

/--
Modelled from the spec: `crate::file::Error`（src にない。spec は file 層を範囲外とする）。

`next` と `add_message_file` が見分ける `NoMessage` と `FileError` のほかは、`other` にまとめる。
-/
inductive Error
  | fileError (e : IoError)
  | noMessage
  | other
deriving DecidableEq

/-- Modelled from the spec: `crate::file::MessageRead`（src にない）。`next` が使う
`messageId()` と `next_pos()` だけを持つ。 -/
structure MessageRead where
  messageId : UInt64
  nextPos : Nat
deriving DecidableEq

/-! ## `MessageFileInfo` と `add_message_file` -/

/-- `MessageFileInfo`。 -/
structure MessageFileInfo where
  path : List Char
  fileId : UInt32
  messageIdStart : UInt64
deriving DecidableEq

/-- `Ord for MessageFileInfo`：`file_id` だけで比べる。 -/
def MessageFileInfo.le (a b : MessageFileInfo) : Bool := a.fileId ≤ b.fileId

/-- 一覧が `file_id` の順に並んでいる。 -/
def SortedByFileId (files : List MessageFileInfo) : Prop := files.Pairwise fun a b => a.le b

instance : DecidablePred SortedByFileId := fun files =>
  inferInstanceAs (Decidable (files.Pairwise fun a b : MessageFileInfo => a.le b = true))

theorem MessageFileInfo.le_trans (a b c : MessageFileInfo) (hab : a.le b) (hbc : b.le c) : a.le c := by
  simp only [MessageFileInfo.le, decide_eq_true_eq] at *
  exact UInt32.le_trans hab hbc

theorem MessageFileInfo.le_total (a b : MessageFileInfo) : (a.le b || b.le a) = true := by
  simp only [MessageFileInfo.le, Bool.or_eq_true, decide_eq_true_eq]
  exact UInt32.le_total _ _

/-- `Vec::sort`：`file_id` の順の安定な merge sort。 -/
def sortFiles (files : List MessageFileInfo) : List MessageFileInfo := files.mergeSort MessageFileInfo.le

theorem sortFiles_sorted (files : List MessageFileInfo) : SortedByFileId (sortFiles files) :=
  List.sorted_mergeSort MessageFileInfo.le_trans MessageFileInfo.le_total files

/-- `add_message_file` が開く file の IO の結果：`MessageFileStore::open` と、先頭からの `read`。 -/
structure MessageFileIo where
  openResult : Except IoError Unit
  readResult : Except Error Unit

/--
`FileCollection::add_message_file`：`message_files` と、返す `io::Result<()>`。

file 名から id が読めなければ何もしない。`open` が失敗すれば `?` で抜ける。`read` が成功すれば
file を末尾に足して並べ直す。`read` が `FileError` なら `?` で抜け、並べ直さない。
ほかの誤りなら足さずに並べ直す。読む closure は `move` なので `msg_id` の複製に書き、
`message_id_start` に入る外の `msg_id` は 0 のままである。
-/
def addMessageFile (messageFiles : List MessageFileInfo) (pathStr : List Char) (io : MessageFileIo) :
    List MessageFileInfo × Except IoError Unit :=
  match readFileId pathStr with
  | some id =>
    match io.openResult with
    | .error e => (messageFiles, .error e)
    | .ok () =>
      let msgId : UInt64 := 0
      match io.readResult with
      | .ok () => (sortFiles (messageFiles ++ [⟨pathStr, id, msgId⟩]), .ok ())
      | .error (.fileError e) => (messageFiles, .error e)
      | .error _ => (sortFiles messageFiles, .ok ())
  | none => (messageFiles, .ok ())

/-- `add_message_file` の後の一覧は、呼ぶ前と同じか、並べ直したものである。 -/
theorem addMessageFile_cases (messageFiles : List MessageFileInfo) (pathStr : List Char)
    (io : MessageFileIo) :
    (addMessageFile messageFiles pathStr io).1 = messageFiles ∨
      (addMessageFile messageFiles pathStr io).1 = sortFiles messageFiles ∨
      ∃ id, (addMessageFile messageFiles pathStr io).1 = sortFiles (messageFiles ++ [⟨pathStr, id, 0⟩]) := by
  unfold addMessageFile
  split
  · split
    · exact .inl rfl
    · split
      · exact .inr (.inr ⟨_, rfl⟩)
      · exact .inl rfl
      · exact .inr (.inl rfl)
  · exact .inl rfl

/-- `add_message_file` は `file_id` の順を保つ。 -/
theorem addMessageFile_sorted {messageFiles : List MessageFileInfo} (h : SortedByFileId messageFiles)
    (pathStr : List Char) (io : MessageFileIo) : SortedByFileId (addMessageFile messageFiles pathStr io).1 := by
  rcases addMessageFile_cases messageFiles pathStr io with he | he | ⟨_, he⟩ <;> rw [he]
  · exact h
  · exact sortFiles_sorted _
  · exact sortFiles_sorted _

/-- 一覧のどの file も `message_id_start` が 0。 -/
def StartsAtZero (files : List MessageFileInfo) : Prop := ∀ f ∈ files, f.messageIdStart = 0

/-- `add_message_file` が足す file の `message_id_start` は 0 である。 -/
theorem addMessageFile_startsAtZero {messageFiles : List MessageFileInfo} (h : StartsAtZero messageFiles)
    (pathStr : List Char) (io : MessageFileIo) : StartsAtZero (addMessageFile messageFiles pathStr io).1 := by
  rcases addMessageFile_cases messageFiles pathStr io with he | he | ⟨_, he⟩ <;> rw [he]
  · exact h
  · exact fun f hf => h f (List.mem_mergeSort.1 hf)
  · intro f hf
    rcases List.mem_append.1 (List.mem_mergeSort.1 hf) with hf | hf
    · exact h f hf
    · rw [List.mem_singleton.1 hf]

/-- `FileCollection::new` の空の一覧に、`load_current_files` が `add_message_file` を順に呼んだ後の一覧。
途中で誤りを返せば `?` で止まる。誤りを返した呼び出しは一覧を変えないので、止まったときの一覧は、
そこまでの呼び出しの列についてのこの関数の値である。 -/
def addMessageFiles (calls : List (List Char × MessageFileIo)) : List MessageFileInfo :=
  calls.foldl (fun files c => (addMessageFile files c.1 c.2).1) []

theorem addMessageFiles_inv (calls : List (List Char × MessageFileIo)) :
    SortedByFileId (addMessageFiles calls) ∧ StartsAtZero (addMessageFiles calls) := by
  suffices ∀ files, SortedByFileId files ∧ StartsAtZero files →
      SortedByFileId (calls.foldl (fun files c => (addMessageFile files c.1 c.2).1) files) ∧
      StartsAtZero (calls.foldl (fun files c => (addMessageFile files c.1 c.2).1) files) from
    this [] ⟨List.Pairwise.nil, fun _ h => absurd h (List.not_mem_nil _)⟩
  induction calls with
  | nil => exact fun _ h => h
  | cons c calls ih =>
    exact fun files h => ih _ ⟨addMessageFile_sorted h.1 c.1 c.2, addMessageFile_startsAtZero h.2 c.1 c.2⟩

/-! ## `find_starting_file` -/

/-- `find_starting_file` のループ：`message_id_start > start_message_id` の file で止まり、
それまでに見た最後の添字を返す。`messages.get(x).unwrap()` は `x < len` なので panic しない。
ここでは一覧を先頭から辿る。 -/
def findStartingFile.loop (startMessageId : UInt64) : List MessageFileInfo → Nat → Nat → Nat
  | [], _, lastFile => lastFile
  | file :: rest, x, lastFile =>
    if file.messageIdStart > startMessageId then lastFile else loop startMessageId rest (x + 1) x

/-- `MessageIterator::find_starting_file`。一覧が空なら、最後の `get(last_file).unwrap()` が panic する。 -/
def findStartingFile (messageFiles : List MessageFileInfo) (startMessageId : UInt64) :
    Option MessageFileInfo :=
  messageFiles[findStartingFile.loop startMessageId messageFiles 0 0]?

/-- どの file の `message_id_start` も `start_message_id` 以下なら、ループは最後まで回る。 -/
theorem findStartingFile.loop_of_le (startMessageId : UInt64) :
    ∀ (files : List MessageFileInfo) (x lastFile : Nat), (∀ f ∈ files, f.messageIdStart ≤ startMessageId) →
      loop startMessageId files x lastFile = if files = [] then lastFile else x + files.length - 1
  | [], _, _, _ => rfl
  | file :: rest, x, lastFile, h => by
    have hle := h file (List.mem_cons_self _ _)
    rw [loop, if_neg (UInt64.not_lt.2 hle), loop_of_le startMessageId rest (x + 1) x
      fun f hf => h f (List.mem_cons_of_mem _ hf)]
    split <;> simp_all

/--
**`add_message_file` で作った一覧では、`find_starting_file` はいつも最後の file を選ぶ。**
`FileCollection::new` の空の一覧に `add_message_file` をどう呼んでも、一覧は `file_id` の順に並び、
どの file も `message_id_start` が 0 である。だから、どの `start_message_id` に対しても
`find_starting_file` は一番大きな `file_id` の file を選ぶ（一覧が空なら panic する）。
-/
theorem findStartingFile_addMessageFiles (calls : List (List Char × MessageFileIo)) (startMessageId : UInt64) :
    SortedByFileId (addMessageFiles calls) ∧ StartsAtZero (addMessageFiles calls) ∧
    findStartingFile (addMessageFiles calls) startMessageId = (addMessageFiles calls).getLast? := by
  obtain ⟨hsorted, hzero⟩ := addMessageFiles_inv calls
  refine ⟨hsorted, hzero, ?_⟩
  rw [findStartingFile, findStartingFile.loop_of_le startMessageId _ 0 0
    fun f hf => (hzero f hf).symm ▸ Nat.zero_le _]
  cases h : addMessageFiles calls with
  | nil => rfl
  | cons f rest => simp [List.getLast?_eq_getElem?]

/-! ## `MessageIterator::next` -/

/-- `NextResult`。 -/
inductive NextResult
  | «end» (n : UInt32)
  | more
  | nextFile (fileId : UInt32) (readed : UInt32)
  | some (reader : MessageRead)
deriving DecidableEq

/-- `MessageIterator`。`current_reader` は、今の file で `read_new` が位置ごとに返す結果として持つ。
`next` が使わない `start_message_id` は書かない。 -/
structure MessageIterator where
  currentReader : Nat → Except Error MessageRead
  currentFileId : UInt32
  maxCommitId : UInt64
  messageFiles : List MessageFileInfo
  number : UInt32
  pos : Nat

/-- `next` の後ろ向きの探索 `for m in 0..message_files.len()`。`m` は今の周の番号、`left` は残りの周の数。
`break` したときの `found` を返し、`break` しなければ `found` は初めの `false` のまま。 -/
def scanFiles (overflowChecks : Bool) (files : List MessageFileInfo) (length : Nat)
    (currentFileId nextFileId : UInt32) : Nat → Nat → Option Bool
  | _, 0 => some false
  | m, left + 1 => do
    let i ← usizeSub overflowChecks m length
    let file ← files[i]?
    if file.fileId = nextFileId then some true
    else if file.fileId = currentFileId then some false
    else scanFiles overflowChecks files length currentFileId nextFileId (m + 1) left

/-- `MessageIterator::next`：更新した iterator と、返す `crate::file::Result<NextResult>`。 -/
def MessageIterator.next (overflowChecks : Bool) (it : MessageIterator) :
    Option (MessageIterator × Except Error NextResult) :=
  if it.number = 0 then some (it, .ok .more)
  else
    match it.currentReader it.pos with
    | .ok reader =>
      if reader.messageId ≤ it.maxCommitId then
        some ({ it with pos := reader.nextPos, number := it.number - 1 }, .ok (.some reader))
      else some (it, .ok (.end it.number))
    | .error .noMessage => do
      let nextFileId ← addU32 overflowChecks it.currentFileId 1
      let length ← usizeSub overflowChecks it.messageFiles.length 1
      let found ← scanFiles overflowChecks it.messageFiles length it.currentFileId nextFileId 0
        it.messageFiles.length
      if found then some (it, .ok (.nextFile nextFileId it.number))
      else some (it, .ok (.end it.number))
    | .error e => some (it, .error e)

/-- 今の file を読み終えたとき、`next` が返すと主張されている値：一覧に `current_file_id + 1` の file が
あれば `NextFile`、なければ `End`。 -/
def nextAtFileEnd (it : MessageIterator) : NextResult :=
  if it.messageFiles.any (·.fileId = it.currentFileId + 1) then .nextFile (it.currentFileId + 1) it.number
  else .end it.number

section Scan

variable (overflowChecks : Bool) (files : List MessageFileInfo) (currentFileId nextFileId : UInt32)

/-- `m < length` の周では、添字の引き算が panic するか、回った添字が一覧の外を指して `unwrap` が
panic する。一覧の長さは `Vec` の上限 `isize::MAX` より小さい。 -/
theorem scanFiles_panics {length m left : Nat} (hm : m < length) (hlen : files.length ≤ length + 1)
    (hvec : length < 2 ^ 63) :
    scanFiles overflowChecks files length currentFileId nextFileId m (left + 1) = none := by
  simp only [scanFiles, usizeSub, if_neg (Nat.not_le_of_lt hm)]
  cases overflowChecks
  · have hi : files[m + 2 ^ 64 - length]? = none := List.getElem?_eq_none (by omega)
    simp only [Bool.false_eq_true, if_false, Option.bind_eq_bind, Option.some_bind, hi, Option.none_bind]
  · rfl

/-- file が一つなら、探索はその file が `next_file_id` かどうかを答える。 -/
theorem scanFiles_single (f : MessageFileInfo) (hne : nextFileId ≠ currentFileId) :
    scanFiles overflowChecks [f] 0 currentFileId nextFileId 0 1 = some (decide (f.fileId = nextFileId)) := by
  simp only [scanFiles, usizeSub_of_le overflowChecks (Nat.le_refl 0), Nat.sub_self, Option.some_bind,
    List.getElem?_cons_zero]
  by_cases h₁ : f.fileId = nextFileId
  · simp [h₁]
  · by_cases h₂ : f.fileId = currentFileId <;> simp [h₁, h₂, Ne.symm hne]

end Scan

/-- `read_new` が `NoMessage` を返したときの `next`。 -/
theorem MessageIterator.next_of_noMessage (overflowChecks : Bool) {it : MessageIterator}
    (hnum : it.number ≠ 0) (hread : it.currentReader it.pos = .error .noMessage) :
    it.next overflowChecks = (do
      let nextFileId ← addU32 overflowChecks it.currentFileId 1
      let length ← usizeSub overflowChecks it.messageFiles.length 1
      let found ← scanFiles overflowChecks it.messageFiles length it.currentFileId nextFileId 0
        it.messageFiles.length
      if found then some (it, .ok (.nextFile nextFileId it.number))
      else some (it, .ok (.end it.number))) := by
  rw [MessageIterator.next, if_neg hnum, hread]

/--
**今の file を読み終えた `MessageIterator::next` は、file が二つ以上あると panic する。**
`number > 0`、`current_file_id < u32::MAX` で `read_new` が `NoMessage` を返すとき、空でない一覧について、
debug と release のどちらの build でも：

* 一覧の file が一つなら、`next` は iterator を変えずに、`current_file_id + 1` の file があれば
  `NextFile`、なければ `End(number)` を返す。
* 一覧の file が二つ以上なら、後ろ向きの探索の最初の周で panic する。並び方によらない。
-/
theorem messageIterator_next_no_message (overflowChecks : Bool) (it : MessageIterator)
    (hnum : it.number ≠ 0) (hread : it.currentReader it.pos = .error .noMessage)
    (hcur : it.currentFileId.toNat + 1 < 2 ^ 32) (hne : it.messageFiles ≠ [])
    (hvec : it.messageFiles.length < 2 ^ 63) :
    it.next overflowChecks =
      if it.messageFiles.length = 1 then some (it, .ok (nextAtFileEnd it)) else none := by
  rw [it.next_of_noMessage overflowChecks hnum hread, addU32_one_of_lt overflowChecks hcur,
    usizeSub_of_le overflowChecks (List.length_pos.2 hne)]
  simp only [Option.bind_eq_bind, Option.some_bind]
  obtain ⟨f, rest, hfs⟩ := List.exists_cons_of_ne_nil hne
  cases rest with
  | nil =>
    simp only [hfs, List.length_singleton, Nat.sub_self, if_true,
      scanFiles_single overflowChecks _ _ f (add_one_ne_self it.currentFileId), Option.some_bind,
      nextAtFileEnd, List.any_cons, List.any_nil, Bool.or_false]
    by_cases h : f.fileId = it.currentFileId + 1 <;> simp [h]
  | cons g rest =>
    have hlen : it.messageFiles.length = rest.length + 2 := by rw [hfs]; rfl
    rw [if_neg (by omega), hlen, scanFiles_panics overflowChecks _ _ _ (by omega) (by omega) (by omega)]
    rfl

/-- 二つの file `1`、`2` を `file_id` の順に持つ一覧で、file `1` を読み終えたところの iterator。 -/
def twoFilesIterator : MessageIterator where
  currentReader _ := .error .noMessage
  currentFileId := 1
  maxCommitId := 0
  messageFiles := [⟨"test.commit.1".toList, 1, 0⟩, ⟨"test.commit.2".toList, 2, 0⟩]
  number := 1
  pos := 0

theorem twoFilesIterator_next_panics :
    SortedByFileId twoFilesIterator.messageFiles ∧
      twoFilesIterator.next true = none ∧ twoFilesIterator.next false = none :=
  ⟨by decide,
    (messageIterator_next_no_message true twoFilesIterator (by decide) rfl (by decide) (by decide)
      (by decide)).trans (if_neg (by decide)),
    (messageIterator_next_no_message false twoFilesIterator (by decide) rfl (by decide) (by decide)
      (by decide)).trans (if_neg (by decide))⟩

/-! ## `next` を続けて呼ぶ -/

theorem toNat_sub_one {n : UInt32} (h : n ≠ 0) : (n - 1).toNat + 1 = n.toNat := by
  have h' : n.toBitVec ≠ 0 := fun he => h (UInt32.eq_of_toBitVec_eq he)
  show (n.toBitVec - 1#32).toNat + 1 = n.toBitVec.toNat
  bv_omega

/-- `next` の一回：message を返すのは `number > 0` で id が `max_commit_id` 以下のときだけで、
そのとき位置が進み `number` が一つ減る。ほかの結果（panic を除く）では iterator は変わらない。 -/
theorem MessageIterator.next_cases (overflowChecks : Bool) {it it' : MessageIterator}
    {r : Except Error NextResult} (h : it.next overflowChecks = some (it', r)) :
    (∃ reader, r = .ok (.some reader) ∧ reader.messageId ≤ it.maxCommitId ∧ it.number ≠ 0 ∧
      it' = { it with pos := reader.nextPos, number := it.number - 1 }) ∨
    (it' = it ∧ ∀ reader, r ≠ .ok (.some reader)) := by
  unfold MessageIterator.next at h
  split at h
  · cases h; exact .inr ⟨rfl, fun _ => nofun⟩
  · split at h
    · split at h <;> cases h
      · exact .inl ⟨_, rfl, ‹_›, ‹_›, rfl⟩
      · exact .inr ⟨rfl, fun _ => nofun⟩
    · simp only [Option.bind_eq_bind, Option.bind_eq_some] at h
      obtain ⟨_, -, _, -, _, -, h⟩ := h
      split at h <;> cases h <;> exact .inr ⟨rfl, fun _ => nofun⟩
    · cases h; exact .inr ⟨rfl, fun _ => nofun⟩

/-- `next` を続けて `k` 回呼んで返る値の列。panic すればそこで終わる。 -/
def MessageIterator.nextN (overflowChecks : Bool) : Nat → MessageIterator → List (Except Error NextResult)
  | 0, _ => []
  | k + 1, it =>
    match it.next overflowChecks with
    | none => []
    | some (it', r) => r :: nextN overflowChecks k it'

/-- 返る値の列のうちの message（`Ok(Some(reader))`）。 -/
def messagesOf (rs : List (Except Error NextResult)) : List MessageRead :=
  rs.filterMap fun
    | .ok (.some reader) => some reader
    | _ => none

theorem messagesOf_cons_of_ne {r : Except Error NextResult} (h : ∀ reader, r ≠ .ok (.some reader))
    (rs : List (Except Error NextResult)) : messagesOf (r :: rs) = messagesOf rs := by
  rcases r with _ | (_ | _ | _ | reader) <;> first | rfl | exact absurd rfl (h reader)

/--
**`next` は `number` 個より多くの message を返さず、返す message は commit 済みである。**
どちらの build でも、`read_new` が何を返しても、`next` の一回は、message を返せば `number` を一つ減らして
位置を `next_pos()` に進め、ほかの結果（panic を除く）では iterator を変えない。だから `next` を何回呼んでも、
返る message の数は初めの `number` 以下で、どの message の id も `max_commit_id` 以下である。
-/
theorem messageIterator_nextN_messages (overflowChecks : Bool) (k : Nat) (it : MessageIterator) :
    (∀ it' r, it.next overflowChecks = some (it', r) →
      (∃ reader, r = .ok (.some reader) ∧ reader.messageId ≤ it.maxCommitId ∧ it.number ≠ 0 ∧
        it' = { it with pos := reader.nextPos, number := it.number - 1 }) ∨
      (it' = it ∧ ∀ reader, r ≠ .ok (.some reader))) ∧
    (messagesOf (it.nextN overflowChecks k)).length ≤ it.number.toNat ∧
    ∀ reader ∈ messagesOf (it.nextN overflowChecks k), reader.messageId ≤ it.maxCommitId := by
  refine ⟨fun _ _ h => it.next_cases overflowChecks h, ?_⟩
  induction k generalizing it with
  | zero => exact ⟨Nat.zero_le _, fun _ h => absurd h (List.not_mem_nil _)⟩
  | succ k ih =>
    rw [MessageIterator.nextN]
    cases hn : it.next overflowChecks with
    | none => exact ⟨Nat.zero_le _, fun _ h => absurd h (List.not_mem_nil _)⟩
    | some p =>
      obtain ⟨it', r⟩ := p
      rcases it.next_cases overflowChecks hn with ⟨reader, rfl, hle, hnum, rfl⟩ | ⟨rfl, hr⟩
      · obtain ⟨hlen, hids⟩ := ih { it with pos := reader.nextPos, number := it.number - 1 }
        have hsub := toNat_sub_one hnum
        refine ⟨by simp only [messagesOf, List.filterMap_cons, List.length_cons] at hlen ⊢; omega, ?_⟩
        intro x hx
        rcases List.mem_cons.1 hx with rfl | hx
        · exact hle
        · exact hids x hx
      · rw [messagesOf_cons_of_ne hr]
        exact ih _

end RustCommon.Raft
