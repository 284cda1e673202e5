/-
# Reading in chunks of any size

A file is read chunk by chunk, and each chunk is filtered on its own. Where the
cuts fall does not matter, since a byte is kept or dropped without a look at its
neighbours. It does not matter either whether text is filtered by character or by
byte: a character beyond the ASCII range has no byte within it, so none of its bytes
is taken for an instruction, even if a cut separates them.

A read that fails ends the reading, and nothing of the program is kept. The end of the
file shows only as a read that gives nothing, so there is one read more than there are
chunks, and a failure of that last one still counts, though all instructions are there.
-/

import Mathlib.Algebra.Order.Floor.Div
import TapeCompiler.Reader
import TapeCompiler.Text.Utf8

namespace TapeCompiler

/-! ## Characters and their bytes -/

namespace Instruction

variable {c : Char} {byte : UInt8} {bytes : List UInt8}

theorem ofCode?_of_not_ascii {code : Nat} (h : 128 ≤ code) : ofCode? code = none := by
  rw [ofCode?, if_neg (Nat.not_lt.2 h)]

theorem ofChar?_of_not_ascii (h : 128 ≤ c.toNat) : ofChar? c = none := by
  cases hread : ofChar? c with
  | none => rfl
  | some instruction =>
    -- Every character that is read is one of the eight, and those are all ASCII.
    have hchar := char_eq_of_ofChar?_eq_some hread
    have hascii : instruction.char.toNat < 128 := by cases instruction <;> decide
    rw [hchar] at hascii
    omega

theorem ofBytes_of_not_ascii (h : ∀ byte ∈ bytes, 128 ≤ byte.toNat) : ofBytes bytes = [] := by
  rw [ofBytes, List.filterMap_eq_nil_iff]
  exact fun byte hbyte => ofCode?_of_not_ascii (h byte hbyte)

/-- No byte of a character beyond the ASCII range is within it. -/
theorem not_ascii_of_mem_utf8EncodeChar (h : 128 ≤ c.toNat)
    (hbyte : byte ∈ String.utf8EncodeChar c) : 128 ≤ byte.toNat := by
  have hwide : ¬ c.val.toNat ≤ 127 := by
    have : c.val.toNat = c.toNat := rfl
    omega
  -- One case for each number of bytes; lead and continuation bytes all have their top bit set.
  rw [String.utf8EncodeChar] at hbyte
  simp only [if_neg hwide] at hbyte
  split at hbyte
  · simp only [List.mem_cons, List.not_mem_nil, or_false] at hbyte
    rcases hbyte with rfl | rfl <;> rw [UInt8.toNat_ofNat'] <;> omega
  · split at hbyte
    · simp only [List.mem_cons, List.not_mem_nil, or_false] at hbyte
      rcases hbyte with rfl | rfl | rfl <;> rw [UInt8.toNat_ofNat'] <;> omega
    · simp only [List.mem_cons, List.not_mem_nil, or_false] at hbyte
      rcases hbyte with rfl | rfl | rfl | rfl <;> rw [UInt8.toNat_ofNat'] <;> omega

theorem utf8EncodeChar_of_ascii (h : c.toNat < 128) :
    String.utf8EncodeChar c = [UInt8.ofNat c.toNat] := by
  have hnarrow : c.val.toNat ≤ 127 := by
    have : c.val.toNat = c.toNat := rfl
    omega
  rw [String.utf8EncodeChar]
  simp only [if_pos hnarrow]
  rfl

/-- The bytes of a character hold the instruction it stands for and no other. -/
theorem ofBytes_utf8EncodeChar (c : Char) :
    ofBytes (String.utf8EncodeChar c) = (ofChar? c).toList := by
  rcases Nat.lt_or_ge c.toNat 128 with hascii | hwide
  · have hcode : (UInt8.ofNat c.toNat).toNat = c.toNat := by
      rw [UInt8.toNat_ofNat']
      omega
    rw [utf8EncodeChar_of_ascii hascii, ofBytes, List.filterMap_cons, hcode, ofCode?,
      if_pos hascii, Char.ofNat_toNat]
    cases ofChar? c <;> rfl
  · rw [ofChar?_of_not_ascii hwide,
      ofBytes_of_not_ascii fun byte hbyte => not_ascii_of_mem_utf8EncodeChar hwide hbyte]
    rfl

/-- Filtering a text and filtering its bytes give the same instructions. -/
theorem ofBytes_encodeUtf8 (text : String) : ofBytes (Text.encodeUtf8 text) = ofText text := by
  rw [Text.encodeUtf8, ofText]
  induction text.toList with
  | nil => rfl
  | cons c rest ih =>
    rw [List.flatMap_cons, ofBytes_append, ih, ofBytes_utf8EncodeChar, List.filterMap_cons]
    cases ofChar? c <;> rfl

end Instruction

/-! ## Chunks -/

namespace Program

variable {bytes content : List UInt8} {chunks : List (List UInt8)} {sofar : Program}

/-- A program of which nothing has been read. -/
def unread : Program := ⟨[], 0⟩

/-- What has been read behind one more chunk. -/
def extend (sofar : Program) (chunk : List UInt8) : Program :=
  ⟨sofar.codes ++ Instruction.ofBytes chunk, sofar.bytes + chunk.length⟩

/-- What has been read behind the chunks that one read after the other gives. A read that gives
nothing is the end of the file. -/
def collect : List (List UInt8) → Program → Program
  | [], sofar => sofar
  | chunk :: rest, sofar => if chunk = [] then sofar else collect rest (sofar.extend chunk)

/-- The chunks make up the content, and none of them is empty. -/
structure IsCut (content : List UInt8) (chunks : List (List UInt8)) : Prop where
  flatten : chunks.flatten = content
  nonempty : ∀ chunk ∈ chunks, chunk ≠ []

theorem collect_eq (h : ∀ chunk ∈ chunks, chunk ≠ []) (sofar : Program) :
    collect chunks sofar = sofar.extend chunks.flatten := by
  induction chunks generalizing sofar with
  | nil => simp [collect, extend, Instruction.ofBytes]
  | cons chunk rest ih =>
    obtain ⟨hchunk, hrest⟩ := List.forall_mem_cons.1 h
    rw [collect, if_neg hchunk, ih hrest]
    simp [extend, Nat.add_assoc]

/-- However a content is cut, its chunks hold its instructions and all of its bytes. -/
theorem IsCut.collect_unread (h : IsCut content chunks) :
    collect chunks unread = ⟨Instruction.ofBytes content, content.length⟩ := by
  rw [collect_eq h.nonempty, h.flatten, extend, unread, List.nil_append, Nat.zero_add]

/-- A content cut into chunks of the size that one read gives at most; only the last of them may
be smaller. -/
def fullChunks (bytes : List UInt8) : List (List UInt8) :=
  if bytes = [] then [] else bytes.take chunkSize :: fullChunks (bytes.drop chunkSize)
termination_by bytes.length
decreasing_by
  have : bytes.length ≠ 0 := by simpa using ‹¬bytes = []›
  simp only [List.length_drop, chunkSize]
  omega

theorem isCut_fullChunks (bytes : List UInt8) : IsCut bytes (fullChunks bytes) := by
  fun_induction fullChunks bytes with
  | case1 => exact ⟨rfl, nofun⟩
  | case2 bytes hbytes ih =>
    refine ⟨?_, List.forall_mem_cons.2 ⟨?_, ih.nonempty⟩⟩
    · rw [List.flatten_cons, ih.flatten, List.take_append_drop]
    · rw [Ne, List.take_eq_nil_iff]
      exact fun h => h.elim (by decide) hbytes

/-- Reading the rest of a file collects its full chunks. -/
theorem readRest_eq_collect (bytes : List UInt8) (sofar : Program) :
    readRest none bytes sofar = .ok (collect (fullChunks bytes) sofar) := by
  fun_induction fullChunks bytes generalizing sofar with
  | case1 =>
    rw [readRest]
    rfl
  | case2 bytes hbytes ih =>
    have hchunk : bytes.take chunkSize ≠ [] :=
      (isCut_fullChunks bytes).nonempty _ (by rw [fullChunks, if_neg hbytes]; exact .head _)
    rw [readRest]
    simp only [Quota.spend, if_neg hbytes]
    rw [ih, collect, if_neg hchunk]
    rfl

/-- A file that can be read is read as its full chunks. -/
theorem load_eq_collect {store : Store} {path : Path} (h : store.contents path = .ok content) :
    load store path = .ok (collect (fullChunks content) unread) := by
  rw [load, h]
  simp only [readOpened]
  rw [show (⟨[], 0⟩ : Program) = unread from rfl, readRest_eq_collect]

theorem load_of_contents_eq_ok {store : Store} {path : Path}
    (h : store.contents path = .ok content) :
    load store path = .ok ⟨Instruction.ofBytes content, content.length⟩ := by
  rw [load_eq_collect h, (isCut_fullChunks content).collect_unread]

/-- **Reading agrees with filtering.** Whatever chunks a content is cut into, reading them one
after the other gives the instructions that filtering the content gives, and the reads of a file
are one such cut. Filtering a text gives what filtering its bytes gives, and so what reading a
file that holds them gives, in whatever chunks and even if a cut falls within a character. -/
theorem reading_agrees_with_filtering :
    (∀ content chunks, IsCut content chunks →
      (Source.bytes content).filter = .ok (collect chunks unread).codes) ∧
    (∀ store path content, store.contents path = .ok content →
      IsCut content (fullChunks content) ∧
        load store path = .ok (collect (fullChunks content) unread)) ∧
    ∀ text : String,
      (Source.text text).filter = (Source.bytes (Text.encodeUtf8 text)).filter ∧
      (∀ chunks, IsCut (Text.encodeUtf8 text) chunks →
        (Source.text text).filter = .ok (collect chunks unread).codes) ∧
      ∀ store path, store.contents path = .ok (Text.encodeUtf8 text) →
        ∃ program, load store path = .ok program ∧
          (Source.text text).filter = .ok program.codes := by
  have hbytes : ∀ content chunks, IsCut content chunks →
      (Source.bytes content).filter = .ok (collect chunks unread).codes := by
    intro content chunks hcut
    rw [Source.filter, hcut.collect_unread]
  have htext : ∀ text : String,
      (Source.text text).filter = (Source.bytes (Text.encodeUtf8 text)).filter := by
    intro text
    rw [Source.filter, Source.filter, Instruction.ofBytes_encodeUtf8]
  refine ⟨hbytes, fun store path content hcontents =>
    ⟨isCut_fullChunks content, load_eq_collect hcontents⟩, fun text => ⟨htext text, ?_, ?_⟩⟩
  · intro chunks hcut
    rw [htext, hbytes _ chunks hcut]
  · intro store path hcontents
    refine ⟨_, load_eq_collect hcontents, ?_⟩
    rw [htext, hbytes _ _ (isCut_fullChunks _)]

/-- A text whose first character has two bytes, with a cut between them, and a file that holds
it. -/
theorem reading_agrees_with_filtering_split_character :
    IsCut (Text.encodeUtf8 "é[+]") [[195], [169, 91, 43], [93]] ∧
      (Source.text "é[+]").filter =
        .ok (collect [[195], [169, 91, 43], [93]] unread).codes ∧
      Store.contents ⟨[(["p.bf"], .file (Text.encodeUtf8 "é[+]"))], []⟩ ⟨.relative, ["p.bf"]⟩ =
        .ok (Text.encodeUtf8 "é[+]") ∧
      ∃ program, load ⟨[(["p.bf"], .file (Text.encodeUtf8 "é[+]"))], []⟩ ⟨.relative, ["p.bf"]⟩ =
          .ok program ∧
        (Source.text "é[+]").filter = .ok program.codes := by
  have hcut : IsCut (Text.encodeUtf8 "é[+]") [[195], [169, 91, 43], [93]] :=
    ⟨by decide +kernel, by decide⟩
  have hcontents : Store.contents ⟨[(["p.bf"], .file (Text.encodeUtf8 "é[+]"))], []⟩
      ⟨.relative, ["p.bf"]⟩ = .ok (Text.encodeUtf8 "é[+]") := by rfl
  obtain ⟨-, hchunks, hfile⟩ := reading_agrees_with_filtering.2.2 "é[+]"
  exact ⟨hcut, hchunks _ hcut, hcontents, hfile _ _ hcontents⟩

/-! ## Reads that fail -/

/-- There are as many full chunks as the length over their size, rounded up. -/
theorem length_fullChunks (bytes : List UInt8) :
    (fullChunks bytes).length = bytes.length ⌈/⌉ chunkSize := by
  fun_induction fullChunks bytes with
  | case1 => rfl
  | case2 bytes hbytes ih =>
    have hpos : 0 < bytes.length := List.length_pos_iff.2 hbytes
    rw [List.length_cons, ih, List.length_drop, Nat.ceilDiv_eq_add_pred_div,
      Nat.ceilDiv_eq_add_pred_div]
    simp only [chunkSize]
    omega

/-- A failure shows if it comes with one of the chunks or with the read behind them. Else it is
never met, and the file is read as if there were none. -/
theorem readRest_of_quota (k : Nat) (fault : IoFault) (bytes : List UInt8) (sofar : Program) :
    readRest (some ⟨k, fault⟩) bytes sofar =
      if k ≤ (fullChunks bytes).length then .error fault else readRest none bytes sofar := by
  -- Each chunk uses up one read; both sides come to the end together.
  fun_induction fullChunks bytes generalizing k sofar with
  | case1 =>
    cases k with
    | zero =>
      rw [readRest]
      rfl
    | succ k =>
      rw [readRest, readRest]
      rfl
  | case2 bytes hbytes ih =>
    cases k with
    | zero =>
      rw [readRest]
      rfl
    | succ k =>
      rw [readRest, readRest]
      simp only [Quota.spend, if_neg hbytes, ih, List.length_cons, Nat.add_le_add_iff_right]

theorem readOpened_of_quota (k : Nat) (fault : IoFault) (path : Path) (content : List UInt8) :
    readOpened (some ⟨k, fault⟩) path content =
      if k ≤ content.length ⌈/⌉ chunkSize then .error (.cannotRead path fault)
      else .ok ⟨Instruction.ofBytes content, content.length⟩ := by
  have hwhole : readRest none content unread =
      .ok ⟨Instruction.ofBytes content, content.length⟩ := by
    rw [readRest_eq_collect, (isCut_fullChunks content).collect_unread]
  rw [readOpened, show (⟨[], 0⟩ : Program) = unread from rfl, readRest_of_quota,
    length_fullChunks, hwhole]
  -- The failure takes the place of all that was read before it.
  by_cases hk : k ≤ content.length ⌈/⌉ chunkSize
  · rw [if_pos hk, if_pos hk]
  · rw [if_neg hk, if_neg hk]

/-- **A failing read gives no part of a program.** Where the first `k` reads of an open file
succeed and the next one fails, the failure is reported, with the path and the reason, exactly if
`k` is at most the length over the chunk size, rounded up. Exactly in the other cases reading gives
a program, and it has all instructions of the content. -/
theorem read_fault_reported_iff (path : Path) (content : List UInt8) (k : Nat) (fault : IoFault) :
    (readOpened (some ⟨k, fault⟩) path content = .error (.cannotRead path fault) ↔
      k ≤ content.length ⌈/⌉ 65536) ∧
    ((ReadError.cannotRead path fault).message =
      "Cannot read from " ++ path.text ++ ": " ++ fault.reason) ∧
    ((∃ program, readOpened (some ⟨k, fault⟩) path content = .ok program ∧
      (Source.bytes content).filter = .ok program.codes) ↔ content.length ⌈/⌉ 65536 < k) ∧
    ∀ program, readOpened (some ⟨k, fault⟩) path content = .ok program →
      (Source.bytes content).filter = .ok program.codes := by
  have hsize : chunkSize = 65536 := rfl
  have hread := readOpened_of_quota k fault path content
  rw [hsize] at hread
  generalize content.length ⌈/⌉ 65536 = chunks at hread ⊢
  rw [hread]
  by_cases hk : k ≤ chunks
  · rw [if_pos hk]
    exact ⟨⟨fun _ => hk, fun _ => rfl⟩, rfl,
      ⟨(fun ⟨_, h, _⟩ => nomatch h), fun h => absurd hk (Nat.not_le.2 h)⟩, nofun⟩
  · rw [if_neg hk]
    refine ⟨⟨nofun, fun h => absurd h hk⟩, rfl,
      ⟨fun _ => Nat.lt_of_not_le hk, fun _ => ⟨_, rfl, rfl⟩⟩, ?_⟩
    rintro _ ⟨⟩
    rfl

/-- A file of exactly one chunk. The second read would give nothing, yet its failure is reported;
the third is never made. -/
theorem read_fault_reported_one_full_chunk :
    readOpened (some ⟨1, ⟨some 5, "Input/output error"⟩⟩) ⟨.relative, ["p.bf"]⟩
        (List.replicate 65536 43) =
      .error (.cannotRead ⟨.relative, ["p.bf"]⟩ ⟨some 5, "Input/output error"⟩) ∧
    ∃ program, readOpened (some ⟨2, ⟨some 5, "Input/output error"⟩⟩) ⟨.relative, ["p.bf"]⟩
        (List.replicate 65536 43) = .ok program ∧
      (Source.bytes (List.replicate 65536 43)).filter = .ok program.codes := by
  have hchunks : (List.replicate 65536 (43 : UInt8)).length ⌈/⌉ 65536 = 1 := by
    rw [List.length_replicate, Nat.ceilDiv_eq_add_pred_div]
  obtain ⟨hreported, -⟩ := read_fault_reported_iff ⟨.relative, ["p.bf"]⟩ (List.replicate 65536 43) 1
    ⟨some 5, "Input/output error"⟩
  obtain ⟨-, -, hread, hwhole⟩ := read_fault_reported_iff ⟨.relative, ["p.bf"]⟩
    (List.replicate 65536 43) 2 ⟨some 5, "Input/output error"⟩
  obtain ⟨program, hprogram, -⟩ := hread.2 (by rw [hchunks]; exact Nat.lt_succ_self 1)
  exact ⟨hreported.2 (Nat.le_of_eq hchunks.symm), program, hprogram, hwhole program hprogram⟩

end Program

end TapeCompiler
