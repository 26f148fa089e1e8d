import Mathlib.Algebra.Group.Nat.Basic
import Mathlib.Data.Nat.Digits
import Mathlib.Data.List.Basic
import RustCommon.Basic

/-!
# raft の file 名

`raft/mod.rs` の file 名の組み立て（`create_event_name`、`create_commit_name`）と、
読み戻し（`load_current_files` の振り分けと `read_file_id`）を、文字列を `List Char` として書く。

* `MAIN_SEPARATOR` は Unix の `'/'`。
* `format!("{}", file_id)` は `Nat.toDigits 10`、`str::parse::<u32>` は先頭に `+` を一つ許す
  10 進の数字列で、値が `u32` に収まるもの。
* `Path::file_name` は最後の区切りの後ろ。作る file 名は数字で終わるので `.` や `..` にはならない。
* file を開いて読むところ（`MessageFileStore::open`、`MemoryMappedInt::open`）は書かない。
  ここで見るのは、どの file 名がどちらの関数に渡され、どの id が読まれるかである。
-/

namespace RustCommon.Raft

/-! ## 標準 library の文字列操作 -/

/-- `s.split(sep).last()`：最後の `sep` の後ろ（`sep` がなければ全体）。`split` は少なくとも
一つの断片を返すので、いつも `some`。 -/
def splitLast (sep : Char) (s : List Char) : Option (List Char) :=
  some (s.reverse.takeWhile (· ≠ sep)).reverse

/-- 10 進の数字列の値。 -/
def decValue (ds : List Char) : Nat := ds.foldl (fun acc c => acc * 10 + (c.toNat - '0'.toNat)) 0

/-- `str::parse::<u32>`：先頭の `+` を一つ除いた残りが空でない 10 進の数字列で、値が `u32` に
収まれば、その値。 -/
def parseU32 (s : List Char) : Option UInt32 :=
  let ds := match s with
    | '+' :: ds => ds
    | ds => ds
  if ds ≠ [] ∧ ds.all Char.isDigit ∧ decValue ds < 2 ^ 32 then some (UInt32.ofNat (decValue ds))
  else none

/-- `format!("{}", n)`：10 進の数字列。 -/
def decimal (n : UInt32) : List Char := Nat.toDigits 10 n.toNat

theorem splitLast_append (sep : Char) (l ds : List Char) (h : sep ∉ ds) :
    splitLast sep (l ++ sep :: ds) = some ds := by
  have hds : ∀ c ∈ ds.reverse, decide (c ≠ sep) = true := by
    intro c hc; simp only [decide_eq_true_eq]; rintro rfl; exact h (List.mem_reverse.mp hc)
  unfold splitLast
  rw [List.reverse_append, List.reverse_cons, List.append_assoc, List.takeWhile_append_of_pos hds]
  simp

/-! ## 10 進の数字列 -/

theorem digitChar_facts : ∀ d, d < 10 →
    (Nat.digitChar d).isDigit = true ∧ (Nat.digitChar d).toNat - '0'.toNat = d := by
  decide

theorem decValue_cons (acc : Nat) (c : Char) (cs : List Char) :
    (c :: cs).foldl (fun acc c => acc * 10 + (c.toNat - '0'.toNat)) acc =
      cs.foldl (fun acc c => acc * 10 + (c.toNat - '0'.toNat)) (acc * 10 + (c.toNat - '0'.toNat)) := rfl

/-- `toDigitsCore` が前に足す数字列は、読むと `n` になる。 -/
theorem toDigitsCore_decValue : ∀ (fuel n : Nat) (ds : List Char), n < fuel →
    (Nat.toDigitsCore 10 fuel n ds).foldl (fun acc c => acc * 10 + (c.toNat - '0'.toNat)) 0 =
      ds.foldl (fun acc c => acc * 10 + (c.toNat - '0'.toNat)) n
  | 0, _, _, h => absurd h (Nat.not_lt_zero _)
  | fuel + 1, n, ds, h => by
    have hd := (digitChar_facts (n % 10) (Nat.mod_lt _ (by decide))).2
    simp only [Nat.toDigitsCore]
    split
    · rw [decValue_cons, hd]; congr 1; omega
    · rw [toDigitsCore_decValue fuel (n / 10) _ (by omega), decValue_cons, hd]
      congr 1; omega

theorem toDigitsCore_isDigit : ∀ (fuel n : Nat) (ds : List Char), (∀ c ∈ ds, c.isDigit = true) →
    ∀ c ∈ Nat.toDigitsCore 10 fuel n ds, c.isDigit = true
  | 0, _, _, h => h
  | fuel + 1, n, ds, h => by
    have hd := (digitChar_facts (n % 10) (Nat.mod_lt _ (by decide))).1
    simp only [Nat.toDigitsCore]
    split
    · intro c hc; rcases List.mem_cons.mp hc with rfl | hc
      · exact hd
      · exact h c hc
    · exact toDigitsCore_isDigit fuel (n / 10) _ fun c hc => by
        rcases List.mem_cons.mp hc with rfl | hc
        · exact hd
        · exact h c hc

theorem toDigitsCore_ne_nil : ∀ (fuel n : Nat) (ds : List Char), 0 < fuel →
    Nat.toDigitsCore 10 fuel n ds ≠ []
  | 0, _, _, h => absurd h (Nat.lt_irrefl _)
  | fuel + 1, n, ds, _ => by
    simp only [Nat.toDigitsCore]
    split
    · exact List.cons_ne_nil _ _
    · rcases fuel with _ | fuel
      · simp [Nat.toDigitsCore]
      · exact toDigitsCore_ne_nil _ _ _ (Nat.succ_pos _)

theorem decimal_isDigit (n : UInt32) : ∀ c ∈ decimal n, c.isDigit = true :=
  toDigitsCore_isDigit _ _ _ (by simp)

/-- `format!` で書いた `u32` は `parse::<u32>` で読み戻せる。 -/
theorem parseU32_decimal (n : UInt32) : parseU32 (decimal n) = some n := by
  have hv : decValue (decimal n) = n.toNat := toDigitsCore_decValue _ _ _ (Nat.lt_succ_self _)
  have hne : decimal n ≠ [] := toDigitsCore_ne_nil _ _ _ (Nat.succ_pos _)
  have hall : (decimal n).all Char.isDigit = true := List.all_eq_true.mpr (decimal_isDigit n)
  have hlt : n.toNat < 2 ^ 32 := n.toNat_lt_size
  have hplus : ∀ ds, decimal n ≠ '+' :: ds := fun ds he => by
    have := decimal_isDigit n '+' (he ▸ List.mem_cons_self _ _)
    exact absurd this (by decide)
  unfold parseU32
  split
  · rename_i ds h; exact absurd h (hplus ds)
  · rw [if_pos ⟨hne, hall, hv ▸ hlt⟩, hv, UInt32.toNat.inj (UInt32.toNat_ofNat_of_lt hlt)]

theorem not_mem_decimal {c : Char} (hc : c.isDigit = false) (n : UInt32) : c ∉ decimal n :=
  fun h => absurd (decimal_isDigit n c h) (by simp [hc])

/-! ## file 名の組み立てと読み戻し -/

/-- `EVENT_FILE_POSTFIX`。 -/
def EVENT_FILE_POSTFIX : List Char := "events".toList

/-- `COMMIT_FILE_POSTIX`。 -/
def COMMIT_FILE_POSTIX : List Char := "commit".toList

/-- `std::path::MAIN_SEPARATOR`（Unix）。 -/
def MAIN_SEPARATOR : Char := '/'

/-- `create_event_name`：`{file_storage_directory}{MAIN_SEPARATOR}{file_prefix}.events.{file_id}`。 -/
def createEventName (fileStorageDirectory filePrefix : List Char) (fileId : UInt32) : List Char :=
  fileStorageDirectory ++ [MAIN_SEPARATOR] ++ filePrefix ++ ['.'] ++ EVENT_FILE_POSTFIX ++ ['.'] ++ decimal fileId

/-- `create_commit_name`：`{file_storage_directory}{MAIN_SEPARATOR}{file_prefix}.commit.{file_id}`。 -/
def createCommitName (fileStorageDirectory filePrefix : List Char) (fileId : UInt32) : List Char :=
  fileStorageDirectory ++ [MAIN_SEPARATOR] ++ filePrefix ++ ['.'] ++ COMMIT_FILE_POSTIX ++ ['.'] ++ decimal fileId

/-- `path.file_name()` を `to_str()` したもの：最後の区切りの後ろ。 -/
def fileName (path : List Char) : Option (List Char) := splitLast MAIN_SEPARATOR path

/-- `read_file_id`：最後の `.` の後ろを `u32` として読む。 -/
def readFileId (pathStr : List Char) : Option UInt32 :=
  match splitLast '.' pathStr with
  | some fileId => parseU32 fileId
  | none => none

/-- `load_current_files` が directory の一つの file に対して呼ぶ関数。 -/
inductive LoadCall
  | addMessageFile
  | addCommitFile
  | skip
deriving DecidableEq, Repr

/-- `load_current_files` の振り分け。`{file_prefix}.commit` で始まる名前は `add_message_file` に、
そうでなく `{file_prefix}.events` で始まる名前は `add_commit_file` に渡す。 -/
def classifyFile (filePrefix p : List Char) : LoadCall :=
  let startsWithEvents := filePrefix ++ ['.'] ++ EVENT_FILE_POSTFIX
  let startsWithCommits := filePrefix ++ ['.'] ++ COMMIT_FILE_POSTIX
  if startsWithCommits.isPrefixOf p then .addMessageFile
  else if startsWithEvents.isPrefixOf p then .addCommitFile
  else .skip

/-- `load_current_files` の loop の本体：file 名を取り出して振り分ける。 -/
def loadFile (filePrefix path : List Char) : LoadCall :=
  match fileName path with
  | some p => classifyFile filePrefix p
  | none => .skip

/-- 区切りを含まない `file_prefix` の下で作った名前の、最後の区切りの後ろ。 -/
theorem fileName_created (d f post : List Char) (n : UInt32) (hf : MAIN_SEPARATOR ∉ f)
    (hpost : MAIN_SEPARATOR ∉ post) :
    fileName (d ++ [MAIN_SEPARATOR] ++ f ++ ['.'] ++ post ++ ['.'] ++ decimal n) =
      some (f ++ ['.'] ++ post ++ ['.'] ++ decimal n) := by
  have h := splitLast_append MAIN_SEPARATOR d (f ++ ['.'] ++ post ++ ['.'] ++ decimal n)
    (by simp [hf, hpost, not_mem_decimal (c := MAIN_SEPARATOR) (by decide),
      (by decide : MAIN_SEPARATOR ≠ '.')])
  simpa [fileName] using h

/-- `{file_prefix}.{post}.{file_id}` からは `file_id` が読める。 -/
theorem readFileId_created (f post : List Char) (n : UInt32) :
    readFileId (f ++ ['.'] ++ post ++ ['.'] ++ decimal n) = some n := by
  have h := splitLast_append '.' (f ++ ['.'] ++ post) (decimal n) (not_mem_decimal (c := '.') (by decide) n)
  simp only [List.append_assoc, List.singleton_append] at h
  simp only [readFileId, List.append_assoc, List.singleton_append, h, parseU32_decimal]

/--
**`load_current_files` は、作った二種類の file を逆の関数に渡す。**
区切りを含まないどの `file_prefix` でも、`create_event_name` の file（`process_files` が
`MessageFileStore` として `message_files` に入れるもの）は `add_commit_file` に、
`create_commit_name` の file（`MemoryMappedInt` として `commit_files` に入れるもの）は
`add_message_file` に渡される。`read_file_id` はどちらからも `file_id` を読む。
-/
theorem load_routes_created_files_swapped (d f : List Char) (n : UInt32) (hf : MAIN_SEPARATOR ∉ f) :
    (∃ p, fileName (createEventName d f n) = some p ∧ loadFile f (createEventName d f n) = .addCommitFile ∧
      readFileId p = some n) ∧
    (∃ p, fileName (createCommitName d f n) = some p ∧
      loadFile f (createCommitName d f n) = .addMessageFile ∧ readFileId p = some n) := by
  have he := fileName_created d f EVENT_FILE_POSTFIX n hf (by decide)
  have hc := fileName_created d f COMMIT_FILE_POSTIX n hf (by decide)
  refine ⟨⟨_, he, ?_, readFileId_created f _ n⟩, ⟨_, hc, ?_, readFileId_created f _ n⟩⟩
  · rw [loadFile, createEventName, he]; simp [classifyFile, EVENT_FILE_POSTFIX, COMMIT_FILE_POSTIX]
  · rw [loadFile, createCommitName, hc]; simp [classifyFile, COMMIT_FILE_POSTIX]

/-- directory `data` に prefix `test` で id 1 の二つの file を作った場合。 -/
theorem load_routes_test_files :
    MAIN_SEPARATOR ∉ "test".toList ∧
      (∃ p, fileName (createEventName "data".toList "test".toList 1) = some p ∧
        loadFile "test".toList (createEventName "data".toList "test".toList 1) = .addCommitFile ∧
        readFileId p = some 1) ∧
      (∃ p, fileName (createCommitName "data".toList "test".toList 1) = some p ∧
        loadFile "test".toList (createCommitName "data".toList "test".toList 1) = .addMessageFile ∧
        readFileId p = some 1) :=
  ⟨by decide, load_routes_created_files_swapped "data".toList "test".toList 1 (by decide)⟩

end RustCommon.Raft
