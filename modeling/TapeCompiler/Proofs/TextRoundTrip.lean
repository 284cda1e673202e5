/-
# Texts read back from files

A text file keeps its text as bytes, and reading turns carriage returns into line
feeds. Decoding undoes encoding for every text: the bytes of a character are decoded
to it, whatever follows them. So a text without carriage returns comes back from its
file as it is, and an assembly text has none.
-/

import TapeCompiler.Generate
import TapeCompiler.TextFile
import TapeCompiler.Proofs.EmitterHistory
import Mathlib.Tactic.SplitIfs

namespace TapeCompiler

/-! ## Decoding undoes encoding -/

namespace Text

variable {byte first second third fourth : UInt8} {n : Nat}

theorem toNat_ofNat_of_lt (h : n < 256) : (UInt8.ofNat n).toNat = n := by
  rw [UInt8.toNat_ofNat']
  omega

theorem isTail_iff : isTail byte = true ↔ 0x80 ≤ byte.toNat ∧ byte.toNat ≤ 0xbf := by
  simp [isTail, UInt8.le_iff_toNat_le]

theorem isSecond_iff : isSecond first second = true ↔
    (0x80 ≤ second.toNat ∧ second.toNat ≤ 0xbf) ∧
    (first.toNat = 0xe0 → 0xa0 ≤ second.toNat) ∧ (first.toNat = 0xed → second.toNat < 0xa0) ∧
    (first.toNat = 0xf0 → 0x90 ≤ second.toNat) ∧ (first.toNat = 0xf4 → second.toNat < 0x90) := by
  simp only [isSecond, Bool.and_eq_true, isTail_iff, Bool.or_eq_true, bne_iff_ne, ne_eq,
    decide_eq_true_eq, UInt8.le_iff_toNat_le, UInt8.lt_iff_toNat_lt, ← UInt8.toNat_inj,
    ← Decidable.imp_iff_not_or, and_assoc]
  exact Iff.rfl

theorem width?_eq : width? first =
    if first.toNat < 0x80 then some 1 else if first.toNat < 0xc2 then none
    else if first.toNat < 0xe0 then some 2 else if first.toNat < 0xf0 then some 3
    else if first.toNat < 0xf5 then some 4 else none := by
  simp only [width?, UInt8.lt_iff_toNat_lt]
  rfl

theorem decodeChar_one (hfirst : first.toNat = n) (hhigh : n < 0x80) (rest : List UInt8) :
    decodeChar first rest = .ok (Char.ofNat n, rest) := by
  have hwidth : width? first = some 1 := by
    rw [width?_eq, if_pos (by omega)]
  simp [decodeChar, hwidth, hfirst]

theorem decodeChar_two (hfirst : first.toNat = n / 64 % 32 + 192)
    (hsecond : second.toNat = n % 64 + 128) (hlow : 0x80 ≤ n) (hhigh : n < 0x800)
    (rest : List UInt8) :
    decodeChar first (second :: rest) = .ok (Char.ofNat n, rest) := by
  have hwidth : width? first = some 2 := by
    rw [width?_eq, if_neg (by omega), if_neg (by omega), if_pos (by omega)]
  have hallowed : isSecond first second = true := by
    rw [isSecond_iff]
    omega
  have hbits : first.toNat % 32 * 64 + second.toNat % 64 = n := by omega
  simp [decodeChar, hwidth, hallowed, tailBits, hbits]

theorem decodeChar_three (hfirst : first.toNat = n / 4096 % 16 + 224)
    (hsecond : second.toNat = n / 64 % 64 + 128) (hthird : third.toNat = n % 64 + 128)
    (hlow : 0x800 ≤ n) (hhigh : n < 0x10000) (hvalid : n < 0xd800 ∨ 0xdfff < n)
    (rest : List UInt8) :
    decodeChar first (second :: third :: rest) = .ok (Char.ofNat n, rest) := by
  have hwidth : width? first = some 3 := by
    rw [width?_eq, if_neg (by omega), if_neg (by omega), if_neg (by omega), if_pos (by omega)]
  have hallowed : isSecond first second = true := by
    rw [isSecond_iff]
    omega
  have htail : isTail third = true := by
    rw [isTail_iff]
    omega
  have hbits : (first.toNat % 16 * 64 + second.toNat % 64) * 64 + third.toNat % 64 = n := by omega
  simp [decodeChar, hwidth, hallowed, htail, tailBits, hbits]

theorem decodeChar_four (hfirst : first.toNat = n / 262144 % 8 + 240)
    (hsecond : second.toNat = n / 4096 % 64 + 128) (hthird : third.toNat = n / 64 % 64 + 128)
    (hfourth : fourth.toNat = n % 64 + 128) (hlow : 0x10000 ≤ n) (hhigh : n < 0x110000)
    (rest : List UInt8) :
    decodeChar first (second :: third :: fourth :: rest) = .ok (Char.ofNat n, rest) := by
  have hwidth : width? first = some 4 := by
    rw [width?_eq, if_neg (by omega), if_neg (by omega), if_neg (by omega), if_neg (by omega),
      if_pos (by omega)]
  have hallowed : isSecond first second = true := by
    rw [isSecond_iff]
    omega
  have htail : isTail third = true := by
    rw [isTail_iff]
    omega
  have hlast : isTail fourth = true := by
    rw [isTail_iff]
    omega
  have hbits : ((first.toNat % 8 * 64 + second.toNat % 64) * 64 + third.toNat % 64) * 64 +
      fourth.toNat % 64 = n := by omega
  simp [decodeChar, hwidth, hallowed, htail, hlast, tailBits, hbits]

/-- The bytes of a character are decoded to it, whatever follows them. -/
theorem exists_utf8EncodeChar_eq_cons (c : Char) :
    ∃ first tail, String.utf8EncodeChar c = first :: tail ∧
      ∀ rest, decodeChar first (tail ++ rest) = .ok (c, rest) := by
  have hvalid : c.toNat < 0xd800 ∨ 0xdfff < c.toNat ∧ c.toNat < 0x110000 := c.valid
  have hself := Char.ofNat_toNat c
  have hval : c.val.toNat = c.toNat := rfl
  unfold String.utf8EncodeChar
  dsimp only
  rw [hval]
  generalize c.toNat = n at hvalid hself
  subst hself
  -- One case for each number of bytes. The bytes are known as numbers, so what is left is
  -- arithmetic; only three bytes could make half of a surrogate pair, which no character is.
  split_ifs with hone htwo hthree
  · exact ⟨_, _, rfl, decodeChar_one (toNat_ofNat_of_lt (by omega)) (by omega)⟩
  · exact ⟨_, _, rfl, decodeChar_two (toNat_ofNat_of_lt (by omega))
      (toNat_ofNat_of_lt (by omega)) (by omega) (by omega)⟩
  · exact ⟨_, _, rfl, decodeChar_three (toNat_ofNat_of_lt (by omega))
      (toNat_ofNat_of_lt (by omega)) (toNat_ofNat_of_lt (by omega)) (by omega) (by omega)
      (by omega)⟩
  · exact ⟨_, _, rfl, decodeChar_four (toNat_ofNat_of_lt (by omega))
      (toNat_ofNat_of_lt (by omega)) (toNat_ofNat_of_lt (by omega)) (toNat_ofNat_of_lt (by omega))
      (by omega) (by omega)⟩

theorem decodeFrom_flatMap (chars : List Char) (position : Nat) (done : List Char) :
    decodeFrom position done (chars.flatMap String.utf8EncodeChar) =
      .ok (done.reverse ++ chars) := by
  induction chars generalizing position done with
  | nil => rw [List.flatMap_nil, decodeFrom, List.append_nil]
  | cons c rest ih =>
    obtain ⟨first, tail, hbytes, hdecode⟩ := exists_utf8EncodeChar_eq_cons c
    rw [List.flatMap_cons, hbytes, List.cons_append, decodeFrom]
    split
    · -- A byte that cannot be decoded does not come up.
      next hfound =>
      rw [hdecode] at hfound
      cases hfound
    · next hfound =>
      rw [hdecode] at hfound
      cases hfound
      rw [ih, List.reverse_cons, List.append_assoc, List.singleton_append]

/-- Every text can be read back from its bytes. -/
theorem decodeUtf8_encodeUtf8 (text : String) : decodeUtf8 (encodeUtf8 text) = .ok text := by
  rw [decodeUtf8, encodeUtf8, decodeFrom_flatMap, List.reverse_nil, List.nil_append, Except.map,
    String.ofList_toList]

/-! ## Carriage returns -/

theorem unifyFrom_of_notMem {chars : List Char} (h : '\r' ∉ chars) (done : List Char) :
    unifyFrom done chars = done.reverse ++ chars := by
  induction chars generalizing done with
  | nil => rw [unifyFrom, List.append_nil]
  | cons c rest ih =>
    obtain ⟨hc, hrest⟩ := not_or.1 (mt List.mem_cons.2 h)
    rw [unifyFrom, ih hrest, List.reverse_cons, List.append_assoc, List.singleton_append]
    · exact fun _ hreturn _ => hc hreturn.symm
    · exact fun hreturn => hc hreturn.symm

/-- A text without carriage returns is left as it is. -/
theorem unifyLineEnds_of_notMem {text : String} (h : '\r' ∉ text.toList) :
    unifyLineEnds text = text := by
  rw [unifyLineEnds, unifyFrom_of_notMem h, List.reverse_nil, List.nil_append,
    String.ofList_toList]

end Text

/-- A text without carriage returns is read from its file as it was written. -/
theorem TextFile.read_of_contents_eq_encodeUtf8 {store : Store} {path : Path} {text : String}
    (hcontents : store.contents path = .ok (Text.encodeUtf8 text)) (h : '\r' ∉ text.toList) :
    read store path = .ok text := by
  rw [read, hcontents]
  dsimp only
  rw [Text.decodeUtf8_encodeUtf8]
  dsimp only
  rw [Text.unifyLineEnds_of_notMem h]

/-! ## Assembly texts -/

theorem Assembly.return_notMem_textOf (lines : List Line) : '\r' ∉ (textOf lines).toList := by
  induction lines with
  | nil => simp
  | cons line rest ih => simp [line.notMem_text_of_lt (by decide : '\r'.toNat < 32), ih]

/-- No carriage return comes into a text that is generated. -/
theorem return_notMem_of_generate_eq_ok {codes : List Instruction} {value : Value} {text : String}
    (h : generate codes value = .ok text) : '\r' ∉ text.toList := by
  obtain ⟨emitter, hcreate, -⟩ := exists_of_bind_eq_ok h
  obtain ⟨finished, hrun, htext⟩ := (Emitter.generateEvents_eq_ok_iff hcreate).1 h
  have hwritten := Emitter.text?_leftBy_run emitter (codes.map .ok)
  obtain ⟨lines, hwrites, -⟩ := Emitter.exists_metered_run emitter (codes.map .ok)
  rw [hrun, hwrites, Assembly.join_writesOf] at hwritten
  rw [Option.some.inj (htext.symm.trans hwritten)]
  exact Assembly.return_notMem_textOf lines

end TapeCompiler
