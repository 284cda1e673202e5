/-
# Options in any order and spelling

The words of a command line group into phrases, each of which says one thing: the
source file, the output file, the size of the tape, or that log lines are wanted.
The loop that reads words looks ahead, since what becomes of an operand depends on
whether an option stands anywhere behind it. Still a phrase does the same to what
has been read wherever it stands, so reading is one fold over the phrases.

From this it can be told what a sequence of phrases comes to. The first source file
is taken and every other one is in the way, so there has to be exactly one; an
output file or a size counts if it is the last; and a size that is no positive
number is refused even if another one follows.
-/

import TapeCompiler.Proofs.ArgumentValues
import TapeCompiler.Proofs.CommandWords
import TapeCompiler.Proofs.NumeralRoundTrip

namespace TapeCompiler.CommandLine

/-- A word that does not begin with a dash. -/
structure PlainWord where
  text : String
  noDash : text.toList.head? ≠ some '-'

/-- The words that say one thing, in any of its spellings. -/
inductive Phrase
  | source (file : PlainWord)
  | outputShort (path : PlainWord)
  | outputLong (path : PlainWord)
  | outputGlued (path : PlainWord)
  | sizeApart (numeral : PlainWord)
  | sizeGlued (numeral : PlainWord)
  | verboseShort
  | verboseLong

namespace Phrase

open Interface Settings

variable {phrase : Phrase} {phrases before : List Phrase} {progress next final : Progress Settings}

/-- The words of a phrase. -/
def words : Phrase → List String
  | source file => [file.text]
  | outputShort path => ["-o", path.text]
  | outputLong path => ["--out", path.text]
  | outputGlued path => ["--out=" ++ path.text]
  | sizeApart numeral => ["--tape-size", numeral.text]
  | sizeGlued numeral => ["--tape-size=" ++ numeral.text]
  | verboseShort => ["-v"]
  | verboseLong => ["--verbose"]

/-- The source file that a phrase names. -/
def source? : Phrase → Option String
  | source file => some file.text
  | _ => none

/-- The output file that a phrase names. -/
def output? : Phrase → Option String
  | outputShort path | outputLong path | outputGlued path => some path.text
  | _ => none

/-- The size that a phrase asks for. -/
def size? : Phrase → Option String
  | sizeApart numeral | sizeGlued numeral => some numeral.text
  | _ => none

/-- Whether a phrase asks for log lines. -/
def isVerbose : Phrase → Bool
  | verboseShort | verboseLong => true
  | _ => false

/-! ## Reading phrase by phrase -/

/-- The words of a phrase once they are sorted. -/
def sorted : Phrase → List (Word Settings)
  | source file => [.operand file.text]
  | outputShort path => [.option "-o" ⟨outputOption, "-o", none⟩, .operand path.text]
  | outputLong path => [.option "--out" ⟨outputOption, "--out", none⟩, .operand path.text]
  | outputGlued path =>
    [.option ("--out=" ++ path.text) ⟨outputOption, "--out", some path.text⟩]
  | sizeApart numeral =>
    [.option "--tape-size" ⟨sizeOption, "--tape-size", none⟩, .operand numeral.text]
  | sizeGlued numeral =>
    [.option ("--tape-size=" ++ numeral.text) ⟨sizeOption, "--tape-size", some numeral.text⟩]
  | verboseShort => [.option "-v" ⟨verboseOption, "-v", none⟩]
  | verboseLong => [.option "--verbose" ⟨verboseOption, "--verbose", none⟩]

/-- Set the source file. -/
def setFile (text : String) (settings : Settings) : Settings :=
  { settings with file := Path.ofText text }

/-- Set the size, unless it is refused. -/
def takeSize (progress : Progress Settings) (numeral : String) :
    Except Stop (Progress Settings) :=
  match Number.readPositive numeral with
  | .ok n => .ok { progress with settings := { progress.settings with tapeSize := .value n } }
  | .error error => .error (sizeOption.complain error.message)

/-- What a phrase does to what has been read. -/
def take (progress : Progress Settings) : Phrase → Except Stop (Progress Settings)
  | source file => .ok (progress.hand setFile file.text)
  | outputShort path | outputLong path | outputGlued path =>
    .ok { progress with
      settings := { progress.settings with output := some (.value (Path.ofText path.text)) } }
  | sizeApart numeral | sizeGlued numeral => takeSize progress numeral.text
  | verboseShort | verboseLong =>
    .ok { progress with settings := { progress.settings with verbose := true } }

theorem sortWords_plainWord (word : PlainWord) (rest : List String) :
    Settings.interface.sortWords (word.text :: rest) =
      (Settings.interface.sortWords rest).map (.operand word.text :: ·) :=
  sortWords_cons (ne_separator_of_head?_ne word.noDash) (sortWord_of_head?_ne word.noDash) rest

/-- No name of an option holds an equals sign. -/
theorem equals_notMem_namedOptions :
    ∀ named ∈ Settings.interface.namedOptions, '=' ∉ named.1.toList := by
  decide

theorem sortWords_apart {option : OptionSpec Settings} (name : String) (word : PlainWord)
    (rest : List String) (hseparator : name ≠ "--")
    (hname : Settings.interface.sortWord name = .ok (.option name ⟨option, name, none⟩)) :
    Settings.interface.sortWords (name :: word.text :: rest) =
      (Settings.interface.sortWords rest).map
        ([.option name ⟨option, name, none⟩, .operand word.text] ++ ·) := by
  rw [sortWords_cons hseparator hname, sortWords_plainWord]
  cases Settings.interface.sortWords rest <;> rfl

theorem sortWords_glued {option : OptionSpec Settings} (name value : String) (rest : List String)
    (hdash : name.toList.head? = some '-') (hequals : '=' ∉ name.toList)
    (hoption : Settings.interface.option? name = some option) :
    Settings.interface.sortWords ((name ++ "=" ++ value) :: rest) =
      (Settings.interface.sortWords rest).map
        ([.option (name ++ "=" ++ value) ⟨option, name, some value⟩] ++ ·) := by
  have hseparator : name ++ "=" ++ value ≠ "--" := by
    intro heq
    have hmem : '=' ∈ (name ++ "=" ++ value).toList := by simp
    rw [heq] at hmem
    exact absurd hmem (by decide)
  exact sortWords_cons hseparator
    (sortWord_glued hdash hequals equals_notMem_namedOptions hoption value) rest

theorem sortWords_words (phrase : Phrase) (rest : List String) :
    Settings.interface.sortWords (phrase.words ++ rest) =
      (Settings.interface.sortWords rest).map (phrase.sorted ++ ·) := by
  cases phrase with
  | source file => exact sortWords_plainWord file rest
  | outputShort path => exact sortWords_apart "-o" path rest (by decide) rfl
  | outputLong path => exact sortWords_apart "--out" path rest (by decide) rfl
  | outputGlued path => exact sortWords_glued "--out" path.text rest rfl (by decide) rfl
  | sizeApart numeral => exact sortWords_apart "--tape-size" numeral rest (by decide) rfl
  | sizeGlued numeral => exact sortWords_glued "--tape-size" numeral.text rest rfl (by decide) rfl
  | verboseShort | verboseLong => exact sortWords_cons (by decide) rfl rest

theorem sortWords_flatMap_words (phrases : List Phrase) :
    Settings.interface.sortWords (phrases.flatMap words) = .ok (phrases.flatMap sorted) := by
  induction phrases with
  | nil => rfl
  | cons phrase rest ih =>
    rw [List.flatMap_cons, List.flatMap_cons, sortWords_words, ih]
    rfl

theorem separator_notMem_sorted (phrase : Phrase) : .separator ∉ phrase.sorted := by
  cases phrase <;> simp [sorted]

theorem head?_flatMap_sorted_ne (phrases : List Phrase) :
    (phrases.flatMap sorted).head? ≠ some .separator := by
  intro hhead
  obtain ⟨phrase, -, hmem⟩ := List.mem_flatMap.1 (List.mem_of_mem_head? hhead)
  exact separator_notMem_sorted phrase hmem

theorem applyValue_outputOption (path : PlainWord) (settings : Settings) :
    applyValue outputOption path.text settings =
      .ok { settings with output := some (.value (Path.ofText path.text)) } := by
  simp only [applyValue, outputOption, if_neg (ne_separator_of_head?_ne path.noDash), setOutput]

theorem bind_applyValue_sizeOption (numeral : PlainWord) (rest : List (Word Settings))
    (progress : Progress Settings) :
    (do
      let after ← applyValue sizeOption numeral.text progress.settings
      Settings.interface.takeWords rest { progress with settings := after }) = (do
      let after ← takeSize progress numeral.text
      Settings.interface.takeWords rest after) := by
  have hgiven : numeral.text ≠ "--" := ne_separator_of_head?_ne numeral.noDash
  cases hread : Number.readPositive numeral.text <;>
    simp only [applyValue, sizeOption, if_neg hgiven, setTapeSize, takeSize, hread] <;> rfl

/-- A phrase does the same wherever it stands. -/
theorem takeWords_sorted (phrase : Phrase) {rest : List (Word Settings)}
    (hrest : rest.head? ≠ some .separator) (progress : Progress Settings) :
    Settings.interface.takeWords (phrase.sorted ++ rest) progress = (do
      let after ← phrase.take progress
      Settings.interface.takeWords rest after) := by
  cases phrase with
  | source file => exact takeWords_one rfl hrest
  | outputShort path | outputLong path =>
    refine (takeWords_apart rfl).trans ?_
    rw [applyValue_outputOption]
    rfl
  | outputGlued path =>
    refine (takeWords_glued rfl).trans ?_
    rw [applyValue_outputOption]
    rfl
  | sizeApart numeral => exact (takeWords_apart rfl).trans (bind_applyValue_sizeOption numeral _ _)
  | sizeGlued numeral => exact (takeWords_glued rfl).trans (bind_applyValue_sizeOption numeral _ _)
  | verboseShort | verboseLong => exact (takeWords_flag rfl).trans rfl

/-- Reading is one fold over the phrases. -/
theorem takeWords_flatMap_sorted (phrases : List Phrase) (progress : Progress Settings) :
    Settings.interface.takeWords (phrases.flatMap sorted) progress =
      phrases.foldlM take progress := by
  induction phrases generalizing progress with
  | nil => exact takeWords_nil_one rfl
  | cons phrase rest ih =>
    -- A separator would be taken along with the operand before it, but no phrase begins with one.
    rw [List.flatMap_cons, takeWords_sorted phrase (head?_flatMap_sorted_ne rest), List.foldlM_cons]
    exact bind_congr ih

theorem read_flatMap_words (phrases : List Phrase) :
    Settings.read (phrases.flatMap words) = (do
      let progress ← phrases.foldlM take ⟨start, false, []⟩
      if progress.operandsTaken then
        if progress.extras.isEmpty then return progress.settings
        else throw (.complaint ("unrecognized arguments: " ++
          String.intercalate " " progress.extras))
      else throw (.complaint "the following arguments are required: file")) := by
  rw [Settings.read, Interface.read, sortWords_flatMap_words]
  simp only [bind, Except.bind]
  rw [takeWords_flatMap_sorted]
  cases phrases.foldlM take ⟨start, false, []⟩ with
  | error stop => rfl
  | ok progress =>
    obtain ⟨settings, taken, extras⟩ := progress
    cases taken <;> rfl

/-! ## What the phrases say -/

/-- The source files that phrases name, in order. -/
def sourcesIn (phrases : List Phrase) : List String := phrases.filterMap source?

/-- The output files that phrases name, in order. -/
def outputsIn (phrases : List Phrase) : List String := phrases.filterMap output?

/-- The sizes that phrases ask for, in order. -/
def sizesIn (phrases : List Phrase) : List String := phrases.filterMap size?

@[simp] theorem sourcesIn_concat (before : List Phrase) (phrase : Phrase) :
    sourcesIn (before ++ [phrase]) = sourcesIn before ++ phrase.source?.toList := by
  rw [sourcesIn, List.filterMap_append]
  cases phrase <;> rfl

@[simp] theorem outputsIn_concat (before : List Phrase) (phrase : Phrase) :
    outputsIn (before ++ [phrase]) = outputsIn before ++ phrase.output?.toList := by
  rw [outputsIn, List.filterMap_append]
  cases phrase <;> rfl

@[simp] theorem sizesIn_concat (before : List Phrase) (phrase : Phrase) :
    sizesIn (before ++ [phrase]) = sizesIn before ++ phrase.size?.toList := by
  rw [sizesIn, List.filterMap_append]
  cases phrase <;> rfl

/-- The operands that were handed over: the first is the source file, the others fit nothing. -/
structure Handed (sources : List String) (progress : Progress Settings) : Prop where
  taken : progress.operandsTaken = !sources.isEmpty
  file : ∀ text, sources.head? = some text → progress.settings.file = Path.ofText text
  extras : progress.extras = sources.tail

/-- The size that numerals ask for: the value of the last one, or the default without any. -/
def LastSize (numerals : List String) (n : Nat) : Prop :=
  match numerals.getLast? with
  | some numeral => Number.readPositive numeral = .ok n
  | none => n = defaultTapeSize

/-- What the options make of the settings: the last output file and the last size count, and no
size was refused. -/
structure Chosen (outputs numerals : List String) (verbose : Bool) (settings : Settings) :
    Prop where
  accepted : ∀ numeral ∈ numerals, ∃ n, Number.readPositive numeral = .ok n
  output : settings.output = outputs.getLast?.map fun text => .value (Path.ofText text)
  size : ∃ n, LastSize numerals n ∧ settings.tapeSize = .value n
  verbose : settings.verbose = verbose

/-- What has been read once some phrases are taken. -/
structure Told (phrases : List Phrase) (progress : Progress Settings) : Prop where
  handed : Handed (sourcesIn phrases) progress
  chosen : Chosen (outputsIn phrases) (sizesIn phrases) (phrases.any isVerbose) progress.settings

theorem told_nil : Told [] ⟨start, false, []⟩ :=
  ⟨⟨rfl, nofun, rfl⟩, nofun, rfl, ⟨_, rfl, rfl⟩, rfl⟩

theorem Handed.hand {sources : List String} (h : Handed sources progress) (text : String) :
    Handed (sources ++ [text]) (progress.hand setFile text) := by
  cases sources with
  | nil =>
    -- The first operand becomes the source file.
    rw [Progress.hand, if_neg (by simp [h.taken])]
    exact ⟨rfl, by rintro _ ⟨⟩; rfl, h.extras⟩
  | cons first others =>
    -- A later one leaves the settings alone and is kept for the complaint.
    rw [Progress.hand, if_pos (by simp [h.taken])]
    exact ⟨h.taken, h.file, by rw [h.extras]; rfl⟩

theorem exists_of_takeSize_eq_ok {numeral : String} (h : takeSize progress numeral = .ok next) :
    ∃ n, Number.readPositive numeral = .ok n ∧
      next = { progress with settings := { progress.settings with tapeSize := .value n } } := by
  unfold takeSize at h
  split at h
  · next n hread => exact ⟨n, hread, (Except.ok.inj h).symm⟩
  · cases h

theorem exists_of_takeSize_eq_error {numeral : String} {stop : Stop}
    (h : takeSize progress numeral = .error stop) :
    ∃ error, Number.readPositive numeral = .error error ∧
      stop = sizeOption.complain error.message := by
  unfold takeSize at h
  split at h
  · cases h
  · next error hread => exact ⟨error, hread, (Except.error.inj h).symm⟩

/-- Only a phrase that names a source file hands an operand over. -/
theorem Handed.take (h : Handed (sourcesIn before) progress)
    (htake : phrase.take progress = .ok next) : Handed (sourcesIn (before ++ [phrase])) next := by
  rw [sourcesIn_concat]
  cases phrase with
  | source file =>
    cases htake
    exact h.hand file.text
  | sizeApart numeral | sizeGlued numeral =>
    obtain ⟨n, -, rfl⟩ := exists_of_takeSize_eq_ok htake
    simpa [source?] using ⟨h.taken, h.file, h.extras⟩
  | _ =>
    cases htake
    simpa [source?] using ⟨h.taken, h.file, h.extras⟩

theorem Chosen.take (h : Chosen (outputsIn before) (sizesIn before) (before.any isVerbose)
      progress.settings) (htake : phrase.take progress = .ok next) :
    Chosen (outputsIn (before ++ [phrase])) (sizesIn (before ++ [phrase]))
      ((before ++ [phrase]).any isVerbose) next.settings := by
  obtain ⟨haccepted, houtput, hsize, hverbose⟩ := h
  rw [outputsIn_concat, sizesIn_concat, List.any_append]
  cases phrase with
  | source file =>
    -- Whether the operand is taken or set aside, the options stay as they are.
    cases htake
    simp only [output?, size?, isVerbose, Option.toList_none, List.append_nil, List.any_cons,
      List.any_nil, Bool.or_false, Progress.hand]
    split <;> exact ⟨haccepted, houtput, hsize, hverbose⟩
  | outputShort path | outputLong path | outputGlued path =>
    cases htake
    simp only [output?, size?, isVerbose, Option.toList_some, Option.toList_none, List.append_nil,
      List.any_cons, List.any_nil, Bool.or_false]
    exact ⟨haccepted, by rw [List.getLast?_concat]; rfl, hsize, hverbose⟩
  | sizeApart numeral | sizeGlued numeral =>
    obtain ⟨n, hread, rfl⟩ := exists_of_takeSize_eq_ok htake
    simp only [output?, size?, isVerbose, Option.toList_some, Option.toList_none, List.append_nil,
      List.any_cons, List.any_nil, Bool.or_false]
    refine ⟨?_, houtput, ⟨n, by rwa [LastSize, List.getLast?_concat], rfl⟩, hverbose⟩
    exact List.forall_mem_append.2 ⟨haccepted, List.forall_mem_singleton.2 ⟨n, hread⟩⟩
  | verboseShort | verboseLong =>
    cases htake
    simp only [output?, size?, isVerbose, Option.toList_none, List.append_nil, List.any_cons,
      List.any_nil, Bool.or_false, Bool.or_true]
    exact ⟨haccepted, houtput, hsize, rfl⟩

/-- What has been read behind any number of phrases. -/
theorem Told.foldlM (h : Told before progress)
    (hfold : phrases.foldlM Phrase.take progress = .ok final) : Told (before ++ phrases) final := by
  -- The phrases behind are taken one by one over to those before.
  induction phrases generalizing before progress with
  | nil =>
    cases hfold
    rwa [List.append_nil]
  | cons phrase rest ih =>
    rw [List.foldlM_cons] at hfold
    obtain ⟨next, htake, hfold⟩ := exists_of_bind_eq_ok hfold
    rw [← List.singleton_append, ← List.append_assoc]
    exact ih ⟨h.handed.take htake, h.chosen.take htake⟩ hfold

/-- Phrases are read to the end unless a size is refused. -/
theorem exists_refused_of_foldlM_eq_error {stop : Stop}
    (hfold : phrases.foldlM Phrase.take progress = .error stop) :
    ∃ numeral ∈ sizesIn phrases, ∃ error, Number.readPositive numeral = .error error ∧
      stop = sizeOption.complain error.message := by
  induction phrases generalizing progress with
  | nil => cases hfold
  | cons phrase rest ih =>
    rw [List.foldlM_cons] at hfold
    cases htake : phrase.take progress with
    | ok next =>
      rw [htake] at hfold
      obtain ⟨numeral, hmem, hrefused⟩ := ih hfold
      refine ⟨numeral, ?_, hrefused⟩
      obtain ⟨other, hother, hnumeral⟩ := List.mem_filterMap.1 hmem
      exact List.mem_filterMap.2 ⟨other, List.mem_cons_of_mem _ hother, hnumeral⟩
    | error refusal =>
      rw [htake] at hfold
      cases hfold
      -- No other phrase can fail.
      cases phrase with
      | sizeApart numeral | sizeGlued numeral =>
        obtain ⟨error, hread, rfl⟩ := exists_of_takeSize_eq_error htake
        exact ⟨numeral.text, .head _, error, hread, rfl⟩
      | _ => cases htake

/-! ## The settings that phrases ask for -/

/-- The settings that phrases ask for: the only source file, the last output file if there is one,
the last size or the default, and log lines if any phrase wants them. -/
structure AskedFor (phrases : List Phrase) (settings : Settings) : Prop where
  file : ∃ text, sourcesIn phrases = [text] ∧ settings.file = Path.ofText text
  output : settings.output =
    (outputsIn phrases).getLast?.map fun text => .value (Path.ofText text)
  size : ∃ n, LastSize (sizesIn phrases) n ∧ settings.tapeSize = .value n
  verbose : settings.verbose = phrases.any isVerbose

theorem LastSize.unique {numerals : List String} {m n : Nat} (h : LastSize numerals m)
    (h' : LastSize numerals n) : m = n := by
  unfold LastSize at h h'
  split at h
  · next numeral hlast =>
    simp only [hlast] at h'
    exact Except.ok.inj (h.symm.trans h')
  · next hlast =>
    simp only [hlast] at h'
    exact h.trans h'.symm

theorem AskedFor.unique {settings other : Settings} (h : AskedFor phrases settings)
    (h' : AskedFor phrases other) : settings = other := by
  obtain ⟨text, hsources, hfile⟩ := h.file
  obtain ⟨text', hsources', hfile'⟩ := h'.file
  obtain ⟨n, hlast, hsize⟩ := h.size
  obtain ⟨n', hlast', hsize'⟩ := h'.size
  obtain rfl : text = text' := List.head_eq_of_cons_eq (hsources.symm.trans hsources')
  obtain rfl := hlast.unique hlast'
  cases settings
  cases other
  rw [Settings.mk.injEq]
  exact ⟨hfile.trans hfile'.symm, h.output.trans h'.output.symm, hsize.trans hsize'.symm,
    h.verbose.trans h'.verbose.symm⟩

/-- Phrases that can be read: one source file, and no size is refused. -/
def Readable (phrases : List Phrase) : Prop :=
  (sourcesIn phrases).length = 1 ∧
    ∀ numeral ∈ sizesIn phrases, ∃ n, Number.readPositive numeral = .ok n

/-- What reading phrases gives. -/
inductive ReadAs (phrases : List Phrase) : Except Stop Settings → Prop
  | settings (readable : Readable phrases) (settings : Settings)
    (asked : AskedFor phrases settings) : ReadAs phrases (.ok settings)
  | complaint (unreadable : ¬ Readable phrases) (text : String) :
    ReadAs phrases (.error (.complaint text))

theorem readAs_read (phrases : List Phrase) :
    ReadAs phrases (Settings.read (phrases.flatMap words)) := by
  rw [read_flatMap_words]
  cases hfold : phrases.foldlM take ⟨start, false, []⟩ with
  | error stop =>
    -- A size was refused, perhaps one that another size behind it would have replaced.
    obtain ⟨numeral, hmem, error, hread, rfl⟩ := exists_refused_of_foldlM_eq_error hfold
    refine .complaint (fun ⟨_, haccepted⟩ => ?_) _
    obtain ⟨n, hn⟩ := haccepted numeral hmem
    cases hread.symm.trans hn
  | ok progress =>
    obtain ⟨⟨htaken, hfile, hextras⟩, haccepted, houtput, hsize, hverbose⟩ :=
      told_nil.foldlM hfold
    rw [List.nil_append] at htaken hfile hextras haccepted houtput hsize hverbose
    simp only [bind, Except.bind, htaken, hextras]
    rcases hsources : sourcesIn phrases with _ | ⟨text, _ | ⟨second, others⟩⟩
    · -- Without a source file the operand is missing.
      exact .complaint (fun h => by simpa [hsources] using h.1) _
    · exact .settings ⟨by rw [hsources]; rfl, haccepted⟩ _
        ⟨⟨text, hsources, hfile text (by rw [hsources]; rfl)⟩, houtput, hsize, hverbose⟩
    · -- A second source file fits nothing.
      exact .complaint (fun h => by simpa [hsources] using h.1) _

theorem read_eq_ok_of_askedFor (phrases : List Phrase) {settings : Settings}
    (h : Readable phrases) (hasked : AskedFor phrases settings) :
    Settings.read (phrases.flatMap words) = .ok settings := by
  have hread := readAs_read phrases
  generalize Settings.read (phrases.flatMap words) = result at hread
  cases hread with
  | settings _ other hother => rw [hasked.unique hother]
  | complaint hunreadable _ => exact absurd h hunreadable

/-- **Options in any order and spelling.** The words of phrases are read exactly if one phrase
names a source file and every size is a positive number. They are then read as the settings that
the phrases ask for, and in every other case the program stops with exit code 2. -/
theorem read_phrases (phrases : List Phrase) :
    ((∃ settings, Settings.read (phrases.flatMap words) = .ok settings) ↔
      (sourcesIn phrases).length = 1 ∧
        ∀ numeral ∈ sizesIn phrases, ∃ n, Number.readPositive numeral = .ok n) ∧
    (∀ settings, Settings.read (phrases.flatMap words) = .ok settings →
      AskedFor phrases settings) ∧
    ((¬ ∃ settings, Settings.read (phrases.flatMap words) = .ok settings) →
      ∃ stop, Settings.read (phrases.flatMap words) = .error stop ∧
        (Settings.interface.respond stop).1 = 2) := by
  have hread := readAs_read phrases
  generalize Settings.read (phrases.flatMap words) = result at hread
  cases hread with
  | settings hreadable settings hasked =>
    refine ⟨⟨fun _ => hreadable, fun _ => ⟨settings, rfl⟩⟩, ?_, fun h => absurd ⟨settings, rfl⟩ h⟩
    rintro _ ⟨⟩
    exact hasked
  | complaint hunreadable text =>
    exact ⟨⟨(fun ⟨_, h⟩ => nomatch h), fun h => absurd h hunreadable⟩, nofun,
      fun _ => ⟨_, rfl, rfl⟩⟩

/-- Output files and sizes given twice in different spellings, around a source file without a
name; and a second source file behind an option. -/
theorem read_phrases_twice :
    (∃ settings, Settings.read ["--tape-size=7", "-o", "a=b c", "", "--verbose", "--tape-size",
        " 1_2", "--out="] = .ok settings ∧
      settings.output = some (.value (Path.ofText "")) ∧ settings.verbose = true) ∧
    ∃ stop, Settings.read ["a", "-v", "b"] = .error stop ∧
      (Settings.interface.respond stop).1 = 2 := by
  have hseven : Number.readPositive "7" = .ok 7 := eq_ok_of_toOption_eq_some (by decide +kernel)
  have htwelve : Number.readPositive " 1_2" = .ok 12 :=
    eq_ok_of_toOption_eq_some (by decide +kernel)
  obtain ⟨hreads, hasks, -⟩ := read_phrases [.sizeGlued ⟨"7", by decide⟩,
    .outputShort ⟨"a=b c", by decide⟩, .source ⟨"", by decide⟩, .verboseLong,
    .sizeApart ⟨" 1_2", by decide⟩, .outputGlued ⟨"", by decide⟩]
  obtain ⟨settings, hsettings⟩ := hreads.2
    ⟨rfl, List.forall_mem_cons.2 ⟨⟨7, hseven⟩, List.forall_mem_singleton.2 ⟨12, htwelve⟩⟩⟩
  have hasked := hasks settings hsettings
  obtain ⟨hreads', -, hstops⟩ := read_phrases [.source ⟨"a", by decide⟩, .verboseShort,
    .source ⟨"b", by decide⟩]
  exact ⟨⟨settings, hsettings, hasked.output, hasked.verbose⟩,
    hstops fun h => absurd (hreads'.1 h).1 (by decide)⟩

end Phrase

/-- The settings that a source file, an output file and the numeral of a size ask for. -/
theorem Settings.read_source_output_size {source output : String} {n : Nat}
    (hsource : source.toList.head? ≠ some '-') (houtput : output.toList.head? ≠ some '-')
    (hpos : 0 < n) (h : Number.Writable n) :
    read [source, "-o", output, "--tape-size", toString n] =
      .ok ⟨Path.ofText source, some (.value (Path.ofText output)), .value n, false⟩ := by
  obtain ⟨c, others, hnumeral, hc⟩ := Number.exists_toDigits_eq_cons n
  have hsize : (toString n).toList.head? ≠ some '-' := by
    rw [Nat.toString_eq_repr, Nat.toList_repr, hnumeral]
    simpa using Number.ne_of_isDigit hc (by decide)
  have hread := Number.readPositive_toString hpos h
  exact Phrase.read_eq_ok_of_askedFor [.source ⟨source, hsource⟩,
    .outputShort ⟨output, houtput⟩, .sizeApart ⟨toString n, hsize⟩]
    ⟨rfl, List.forall_mem_singleton.2 ⟨n, hread⟩⟩ ⟨⟨source, rfl, rfl⟩, rfl, ⟨n, hread, rfl⟩, rfl⟩

end TapeCompiler.CommandLine
