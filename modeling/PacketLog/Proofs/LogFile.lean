import PacketLog.Proofs.SingleLine
import PacketLog.Proofs.Unicode
import PacketLog.Sink.File

/-!
# Proofs — LogFile

What a log file holds after lines have been written to it.

* `Text.Utf8.not_mem_encode`: a text with nothing below the blank has no line feed among its bytes.
* `FileSystem.follow_put`: a path still leads to a file whose contents have changed.
* `FileLog.Ready.write`: what one write does to a file that is in order.
* `FileLog.Ready.writeAll`: what any number of writes do to it.
* `FileLog.one_line_each`: the bytes that have been added are those of the lines, each on its own.
-/

namespace PacketLog

/-! ### Line feeds -/

section LineFeeds

namespace Text.Utf8

/-- A byte of a character is its code point, or not below 128. -/
theorem toNat_of_mem_bytes {c : Char} {b : UInt8} (h : b ∈ String.utf8EncodeChar c) :
    b.toNat = c.toNat ∨ 128 ≤ b.toNat := by
  have hc : c.val.toNat = c.toNat := rfl
  unfold String.utf8EncodeChar at h
  rw [hc] at h
  simp only at h
  split at h
  · left
    obtain rfl := List.mem_singleton.1 h
    simp
    omega
  · right
    split at h
    · simp only [List.mem_cons, List.not_mem_nil, or_false] at h
      rcases h with rfl | rfl <;> simp <;> omega
    split at h
    · simp only [List.mem_cons, List.not_mem_nil, or_false] at h
      rcases h with rfl | rfl | rfl <;> simp <;> omega
    · simp only [List.mem_cons, List.not_mem_nil, or_false] at h
      rcases h with rfl | rfl | rfl | rfl <;> simp <;> omega

/-- **A text with nothing below the blank has no line feed among its bytes.** -/
theorem not_mem_encode {s : String} (h : Unbroken s.toList) : 10 ∉ encode s := by
  rw [encode_eq]
  intro hb
  obtain ⟨c, hc, hb⟩ := List.mem_flatMap.1 hb
  have hl : 0x20 ≤ c.toNat := h c hc
  have hn : (10 : UInt8).toNat = 10 := rfl
  have := toNat_of_mem_bytes hb
  omega

end Text.Utf8

/-- The bytes of lines. -/
def LogLine.bytes (lines : List LogLine) : List UInt8 :=
  lines.flatMap fun l => Text.Utf8.encode l.text ++ [10]

/-- Parted at its line feeds, what has been written is the lines, and nothing after them. -/
theorem LogLine.splitOn_bytes {lines : List LogLine}
    (h : ∀ l ∈ lines, Text.Unbroken l.text.toList) :
    (LogLine.bytes lines).splitOn 10 = (lines.map fun l => Text.Utf8.encode l.text) ++ [[]] := by
  induction lines with
  | nil => rfl
  | cons l lines ih =>
      obtain ⟨hl, h⟩ := List.forall_mem_cons.1 h
      rw [LogLine.bytes, List.flatMap_cons, List.append_assoc, List.singleton_append,
        List.splitOn_append_cons_self_of_not_mem (Text.Utf8.not_mem_encode hl)]
      exact congrArg _ (ih h)

end LineFeeds

/-! ### Writing -/

section Writing

namespace FileSystem

variable {fs : FileSystem} {place : Place} {old : List UInt8} {path : String}

theorem node?_put_self (h : place ≠ []) (n : Node) : (fs.put place n).node? place = some n := by
  cases place with
  | nil => exact absurd rfl h
  | cons name place => exact List.lookup_cons_self

theorem lookup_erased {q : Place} (h : q ≠ place) (nodes : List (Place × Node)) :
    (nodes.filter fun m => m.1 ≠ place).lookup q = nodes.lookup q := by
  induction nodes with
  | nil => rfl
  | cons m nodes ih =>
      by_cases hm : m.1 = place
      · have hq : (q == m.1) = false := beq_false_of_ne (hm ▸ h)
        rw [List.filter_cons_of_neg (by simpa using hm), List.lookup_cons, hq]
        exact ih
      · rw [List.filter_cons_of_pos (by simpa using hm), List.lookup_cons, List.lookup_cons, ih]

theorem node?_put_of_ne {q : Place} (h : q ≠ place) (n : Node) :
    (fs.put place n).node? q = fs.node? q := by
  cases q with
  | nil => rfl
  | cons name q =>
      change List.lookup (name :: q) ((place, n) :: fs.nodes.filter _) = fs.nodes.lookup (name :: q)
      rw [List.lookup_cons, beq_false_of_ne h]
      exact lookup_erased h fs.nodes

/-- Other contents of a file lead nobody astray: nothing is below it. -/
theorem enter_put (h : fs.node? place = some (.file old)) (new : List UInt8) {q r : Place}
    {name : String} (he : fs.enter q name = .ok r) :
    (fs.put place (.file new)).enter q name = .ok r := by
  have hq : q ≠ place := by
    rintro rfl
    rw [enter, h] at he
    cases he
  rw [enter, node?_put_of_ne hq]
  exact he

theorem foldlM_enter_put (h : fs.node? place = some (.file old)) (new : List UInt8)
    {names : List String} {q r : Place} (hr : names.foldlM fs.enter q = .ok r) :
    names.foldlM (fs.put place (.file new)).enter q = .ok r := by
  induction names generalizing q with
  | nil => exact hr
  | cons name names ih =>
      rw [List.foldlM_cons] at hr ⊢
      cases he : fs.enter q name with
      | error e =>
          rw [he] at hr
          cases hr
      | ok q' =>
          rw [he] at hr
          rw [enter_put h new he]
          exact ih hr

theorem follow_put (h : fs.node? place = some (.file old)) (new : List UInt8)
    (hf : fs.follow path = .ok place) :
    (fs.put place (.file new)).follow path = .ok place := by
  unfold follow walk at hf ⊢
  by_cases hnul : path.toList.contains '\x00' = true
  · rw [if_pos hnul] at hf
    cases hf
  by_cases hempty : path.isEmpty = true
  · rw [if_neg hnul, if_pos hempty] at hf
    cases hf
  by_cases hlong : pathLimit ≤ path.utf8ByteSize
  · rw [if_neg hnul, if_neg hempty, if_pos hlong] at hf
    cases hf
  · rw [if_neg hnul, if_neg hempty, if_neg hlong] at hf ⊢
    exact foldlM_enter_put h new hf

/-- A path leads to what stands at its end. -/
theorem find_eq_ok_iff {n : Node} :
    fs.find path = .ok (place, n) ↔ fs.follow path = .ok place ∧ fs.node? place = some n := by
  unfold find
  constructor
  · intro h
    cases hf : fs.follow path with
    | error e =>
        rw [hf] at h
        cases h
    | ok q =>
        simp only [hf, bind, Except.bind] at h
        split at h
        · next hn =>
            cases h
            exact ⟨rfl, hn⟩
        · cases h
  · rintro ⟨hf, hn⟩
    rw [hf]
    simp only [bind, Except.bind, hn]
    rfl

end FileSystem

namespace FileLog

/-- The file of the log is at this place and holds these bytes, and a write will find it: it is
open and nothing has gone wrong with it, or it can be opened.  The path of the log leads to it. -/
def Ready (l : FileLog) (place : Place) (bytes : List UInt8) : Prop :=
  ∃ files, l.open? = .ok ({ place? := some place }, files) ∧
    files.find l.path = .ok (place, .file bytes)

variable {l : FileLog} {place : Place} {bytes : List UInt8}

/-- **What one write does to a file that is in order.** -/
theorem Ready.write (h : l.Ready place bytes) (text : String) :
    (l.write text).1 = .ok ∧
      (l.write text).2.Ready place (bytes ++ (Text.Utf8.encode text ++ [10])) ∧
      (l.write text).2.content? = some (bytes ++ (Text.Utf8.encode text ++ [10])) := by
  obtain ⟨files, ho, hfind⟩ := h
  obtain ⟨hf, hn⟩ := FileSystem.find_eq_ok_iff.1 hfind
  have hp : place ≠ [] := by
    rintro rfl
    cases hn
  have hw : l.write text = (.ok, { l with
      files   := files.put place (.file (bytes ++ (Text.Utf8.encode text ++ [10])))
      handle? := some { place? := some place } }) := by
    rw [FileLog.write, ho]
    simp only [append, FileSystem.append, hn]
  have hnew := FileSystem.find_eq_ok_iff.2
    ⟨FileSystem.follow_put hn (bytes ++ (Text.Utf8.encode text ++ [10])) hf,
      FileSystem.node?_put_self hp _⟩
  rw [hw]
  exact ⟨rfl, ⟨_, rfl, hnew⟩, by rw [content?, hnew]⟩

/-- There is nothing for a flush to do. -/
theorem Ready.flush (h : l.Ready place bytes) : l.flush = (.ok, l) := by
  obtain ⟨files, ho, -⟩ := h
  unfold FileLog.flush
  cases hh : l.handle? with
  | none => rfl
  | some handle =>
      have he : l.open? = .ok (handle, l.files) := by rw [open?, hh]
      obtain rfl : handle = { place? := some place } :=
        congrArg Prod.fst (Except.ok.inj (he.symm.trans ho))
      rfl

end FileLog

/-- Write lines, one after the other. -/
def Sink.writeAll {σ : Type} (sink : Sink σ) (s : σ) : List LogLine → List Outcome × σ
  | []            => ([], s)
  | line :: lines =>
    let (outcome, s) := sink.write s line
    let (outcomes, s) := sink.writeAll s lines
    (outcome :: outcomes, s)

namespace FileLog

/-- **What any number of writes do to a file that is in order.** -/
theorem Ready.writeAll {l : FileLog} {place : Place} {bytes : List UInt8}
    (h : l.Ready place bytes) (lines : List LogLine) :
    (Sink.file.writeAll l lines).1 = lines.map (fun _ => .replies .ok) ∧
      (Sink.file.writeAll l lines).2.Ready place (bytes ++ LogLine.bytes lines) ∧
      (lines ≠ [] →
        (Sink.file.writeAll l lines).2.content? = some (bytes ++ LogLine.bytes lines)) := by
  induction lines generalizing l bytes with
  | nil =>
      refine ⟨rfl, ?_, fun hn => absurd rfl hn⟩
      rw [LogLine.bytes, List.flatMap_nil, List.append_nil]
      exact h
  | cons line lines ih =>
      obtain ⟨hok, hnext, hcontent⟩ := h.write line.text
      obtain ⟨hrest, hlast, hmore⟩ := ih hnext
      rw [List.append_assoc] at hlast hmore
      refine ⟨?_, hlast, fun _ => ?_⟩
      · change Outcome.replies (l.write line.text).1 :: _ = _
        rw [hok]
        exact congrArg _ hrest
      · cases lines with
        | nil =>
            rw [LogLine.bytes, List.flatMap_cons, List.flatMap_nil, List.append_nil]
            exact hcontent
        | cons _ _ => exact hmore (List.cons_ne_nil _ _)

/-! ### Lines -/

/-- The lines of records, each in a form of its own. -/
def linesOf (entries : List (Record × LineFormat × Bool)) : List LogLine :=
  entries.map fun (r, format, verbose) => r.line format verbose

theorem unbroken_of_mem_linesOf {entries : List (Record × LineFormat × Bool)} :
    ∀ line ∈ linesOf entries, Text.Unbroken line.text.toList := by
  intro line hline
  obtain ⟨⟨r, format, verbose⟩, -, rfl⟩ := List.mem_map.1 hline
  exact r.unbroken_lineText format verbose

/-- Lines of records stand each on its own in a log file. -/
structure OneLineEach (l : FileLog) (place : Place) (bytes : List UInt8)
    (entries : List (Record × LineFormat × Bool)) : Prop where
  /-- No line has a line feed, a carriage return or anything else below the blank in it. -/
  unbroken : ∀ (r : Record) (format : LineFormat) (verbose : Bool),
    ∀ c ∈ (r.lineText format verbose).toList, 0x20 ≤ c.toNat
  /-- No line that is text has a control character in it. -/
  plain : ∀ (r : Record) (verbose : Bool), ∀ c ∈ (r.lineText .text verbose).toList,
    0x20 ≤ c.toNat ∧ ¬(0x7F ≤ c.toNat ∧ c.toNat ≤ 0x9F)
  /-- The lines are all accepted. -/
  accepted : (Sink.file.writeAll l (linesOf entries)).1 = entries.map fun _ => .replies .ok
  /-- The file then holds more bytes, which parted at their line feeds are the lines, in order and
  with nothing after the last. -/
  added : ∃ more : List UInt8,
    (Sink.file.writeAll l (linesOf entries)).2.Ready place (bytes ++ more) ∧
    (entries ≠ [] →
      (Sink.file.writeAll l (linesOf entries)).2.content? = some (bytes ++ more)) ∧
    more.splitOn 10 =
      (entries.map fun (r, format, verbose) => Text.Utf8.encode (r.lineText format verbose)) ++
        [[]]
  /-- A flush then succeeds, and changes nothing. -/
  flushed : Sink.file.flush (Sink.file.writeAll l (linesOf entries)).2 =
    (.replies .ok, (Sink.file.writeAll l (linesOf entries)).2)

/-- **Lines of records stand each on its own in a log file**, whatever the records say. -/
theorem one_line_each {l : FileLog} {place : Place} {bytes : List UInt8}
    (h : l.Ready place bytes) (entries : List (Record × LineFormat × Bool)) :
    l.OneLineEach place bytes entries := by
  obtain ⟨hok, hready, hcontent⟩ := h.writeAll (linesOf entries)
  exact {
    unbroken := fun r format verbose => r.unbroken_lineText format verbose
    plain := fun r verbose c hc => by
      have hn := r.plain_lineText verbose c hc
      simp only [Text.isControl, Bool.or_eq_false_iff, Bool.and_eq_false_iff,
        decide_eq_false_iff_not] at hn
      omega
    accepted := by
      rw [hok, linesOf, List.map_map]
      rfl
    added := by
      refine ⟨_, hready, fun hn => hcontent fun hm => hn (List.map_eq_nil_iff.1 hm), ?_⟩
      rw [LogLine.splitOn_bytes unbroken_of_mem_linesOf, linesOf, List.map_map]
      rfl
    flushed := by
      change (Outcome.replies (FileLog.flush _).1, (FileLog.flush _).2) = _
      rw [hready.flush] }

end FileLog

/-- A client whose name would end its line and begin another. -/
def Record.breaking : Record where
  kind          := .publish
  code          := 3
  direction     := .inbound
  client        := "c\nts=-"
  topic         := some "a\r\nb"
  subscriptions := []
  qos           := none
  retain        := false
  payloadLength := 1
  payload       := some [10]
  truncated     := false
  reasonCodes   := []
  reason        := none
  properties    := [("\n", "\n")]
  details       := none
  time          := ⟨0, 0⟩

/-- It ends none in a file that is not there yet. -/
theorem FileLog.one_line_each_breaking :
    OneLineEach { path := "/log", files := {} } ["log"] []
      [(.breaking, .text, true), (.breaking, .json, true)] := by
  have hslash : "/log".endsWith "/" = false := by decide +kernel
  have hopen : FileSystem.openFile {} "/log" =
      .ok (["log"], { nodes := [(["log"], .file [])] }) := by
    rw [FileSystem.openFile, hslash]
    rfl
  refine one_line_each ⟨{ nodes := [(["log"], .file [])] }, ?_, rfl⟩ _
  rw [open?, hopen]
  rfl

end Writing

end PacketLog
