import PathScript.CommandLine.Command
import PathScript.Proofs.Filing
import PathScript.Proofs.Termination

/-!
# All or Nothing

The command writes drawings only when there is nothing left that could fail but the
writing itself. The codec that the command line asks for has to exist, and every input
has to have been imported. If one of them was not, the first of these decides how the
command ends, nothing is written, and inputs after it are not looked at.

The command goes through the inputs with what is left on the standard input in its
hands. Here an input stands by itself: it is imported from what it holds, which depends
on the inputs before it in so far as the first one named `-` takes everything from the
standard input. In these terms the inputs have outcomes independently of how the command
gets to them, and it is to be shown that the command gives back the drawings if all
outcomes are drawings, and the first failure otherwise.

Which codecs there are, what the files are and what can go wrong with them does not
matter for this. It does for what the output file holds in the end, and there it is
asked of files that they keep what is written to them.

That an input is not looked at is the same as that it could have been any other. So this
is a statement about two commands, one of which has different files and another standard
input, as far as those were not asked for.

## Main definitions

* `contentsAfter`: What an input holds that comes after others.
* `importAfter`: What comes of importing it.
* `Imported`: All inputs can be imported, and these are their drawings.
* `FirstFailure`: The first input that cannot be imported.
* `Facilities.CodecFound`: The codec asked for exists.
* `Facilities.conclusion`, `Facilities.message?`: How the command ends on a failure, and
  what it says about it.
* `Facilities.Writes`: The command gets to the point where it writes.

## Theorems

* `drawings_of_imported`, `drawings_of_firstFailure`: What the command makes of inputs.
* `imported_or_firstFailure`: There is nothing else it could make of them.
* `importAll_of_agrees`: What comes after the first failure does not matter.
* `command_all_or_nothing`: The same for the command as a whole.
-/

namespace PathScript

section Inputs

variable {ε : Type} (read : String → Except ε (List UInt8)) (run : List UInt8 → Run)
variable (stdin : List UInt8)

/-- What an input holds that comes after others. The first input named `-` holds the
    standard input, and later ones hold nothing. -/
def contentsAfter (earlier : List String) (input : String) : Except ε (List UInt8) :=
  if input = "-" then .ok (if "-" ∈ earlier then [] else stdin) else read input

/-- What comes of importing what an input holds. -/
def importContents : Except ε (List UInt8) → Except (InputError ε) (List Instruction)
  | .error e => .error (.file e)
  | .ok contents =>
      match (run contents).drawing with
      | .error f => .error (.fault f)
      | .ok drawing => .ok drawing

/-- The log of importing what an input holds. -/
def logContents (input : String) : Except ε (List UInt8) → List LogLine
  | .error _ => []
  | .ok contents =>
      let r := run contents
      match r.drawing with
      | .error _ => r.log
      | .ok drawing => r.log ++ [importedLine input drawing]

/-- What comes of importing an input that comes after others. -/
def importAfter (earlier : List String) (input : String) :
    Except (InputError ε) (List Instruction) :=
  importContents run (contentsAfter read stdin earlier input)

/-- All inputs can be imported, and these are their drawings in order. -/
def Imported (inputs : List String) (drawings : List (List Instruction)) : Prop :=
  inputs.mapIdx (fun k input => importAfter read run stdin (inputs.take k) input)
    = drawings.map .ok

/-- An input that cannot be imported, while all inputs before it can. -/
structure FirstFailure (inputs earlier : List String) (input : String) (e : InputError ε) :
    Prop where
  position : ∃ later, inputs = earlier ++ input :: later
  imported : ∃ drawings, Imported read run stdin earlier drawings
  failure : importAfter read run stdin earlier input = .error e

/-- What is left on the standard input after an input. -/
def stdinAfter (input : String) : List UInt8 := if input = "-" then [] else stdin

variable {read run stdin} {input : String} {inputs earlier : List String}

/-- Inputs after the first are as if it were not there, but for the standard input. -/
theorem importAfter_cons (name : String) :
    importAfter read run stdin (input :: earlier) name
      = importAfter read run (stdinAfter stdin input) earlier name := by
  unfold importAfter contentsAfter stdinAfter
  by_cases hinput : input = "-"
  · simp only [hinput, List.mem_cons, true_or, if_true, ite_self]
  · simp only [hinput, List.mem_cons, Ne.symm hinput, false_or, if_false]

theorem imported_cons {drawings : List (List Instruction)} :
    Imported read run stdin (input :: inputs) drawings ↔
      ∃ drawing rest, drawings = drawing :: rest ∧
        importAfter read run stdin [] input = .ok drawing ∧
        Imported read run (stdinAfter stdin input) inputs rest := by
  unfold Imported
  rw [List.mapIdx_cons]
  simp only [List.take_zero, List.take_succ_cons, importAfter_cons]
  constructor
  · intro h
    cases drawings with
    | nil => cases h
    | cons drawing rest =>
        rcases List.cons.inj h with ⟨hfirst, hrest⟩
        exact ⟨drawing, rest, rfl, hfirst, hrest⟩
  · rintro ⟨drawing, rest, rfl, hfirst, hrest⟩
    rw [hfirst, hrest, List.map_cons]

theorem FirstFailure.of_cons {first : String} {e : InputError ε}
    (h : FirstFailure read run stdin (first :: inputs) (first :: earlier) input e) :
    (∃ drawing, importAfter read run stdin [] first = .ok drawing) ∧
      FirstFailure read run (stdinAfter stdin first) inputs earlier input e := by
  rcases h with ⟨⟨later, hposition⟩, ⟨drawings, himported⟩, hfailure⟩
  rcases imported_cons.mp himported with ⟨drawing, rest, _, hdrawing, hrest⟩
  rw [importAfter_cons] at hfailure
  exact ⟨⟨drawing, hdrawing⟩, ⟨later, (List.cons.inj hposition).2⟩, ⟨rest, hrest⟩, hfailure⟩

/-- There is no third way: the inputs can all be imported, or one is the first that
    cannot. -/
theorem imported_or_firstFailure (read : String → Except ε (List UInt8))
    (run : List UInt8 → Run) (stdin : List UInt8) (inputs : List String) :
    (∃ drawings, Imported read run stdin inputs drawings) ∨
      ∃ earlier input e, FirstFailure read run stdin inputs earlier input e := by
  induction inputs generalizing stdin with
  | nil => exact .inl ⟨[], rfl⟩
  | cons first inputs ih =>
      -- The first input fails itself, or the rest is up to the others.
      cases hfirst : importAfter read run stdin [] first with
      | error e => exact .inr ⟨[], first, e, ⟨inputs, rfl⟩, ⟨[], rfl⟩, hfirst⟩
      | ok drawing =>
          rcases ih (stdinAfter stdin first) with ⟨rest, hrest⟩ | ⟨earlier, input, e, hrest⟩
          · exact .inl ⟨drawing :: rest, imported_cons.mpr ⟨drawing, rest, rfl, hfirst, hrest⟩⟩
          · rcases hrest with ⟨⟨later, rfl⟩, ⟨drawings, himported⟩, hfailure⟩
            refine .inr ⟨first :: earlier, input, e, ⟨later, rfl⟩, ⟨drawing :: drawings, ?_⟩, ?_⟩
            · exact imported_cons.mpr ⟨drawing, drawings, rfl, hfirst, himported⟩
            · rw [importAfter_cons]
              exact hfailure

/-- The command opens an input with what the standard input holds at this point. -/
theorem openInput_eq :
    openInput read stdin input
      = (contentsAfter read stdin [] input).map (·, stdinAfter stdin input) := by
  unfold openInput contentsAfter stdinAfter
  by_cases hinput : input = "-"
  · rw [if_pos hinput, if_pos hinput, if_pos hinput, if_neg List.not_mem_nil]
    rfl
  · rw [if_neg hinput, if_neg hinput, if_neg hinput]

/-- The command imports the first input, and if that succeeds the others. -/
theorem importAll_cons :
    importAll read run stdin (input :: inputs) =
      match importAfter read run stdin [] input with
      | .error e =>
          ⟨logContents run input (contentsAfter read stdin [] input), .error (input, e)⟩
      | .ok drawing =>
          let rest := importAll read run (stdinAfter stdin input) inputs
          ⟨logContents run input (contentsAfter read stdin [] input) ++ rest.log,
            rest.drawings.map (drawing :: ·)⟩ := by
  rw [importAll, openInput_eq, importAfter]
  cases contentsAfter read stdin [] input with
  | error e => rfl
  | ok contents =>
      simp only [Except.map, importContents, logContents]
      cases (run contents).drawing with
      | error f => rfl
      | ok drawing => simp only [List.append_assoc, List.singleton_append]

/-- If all inputs can be imported, the command has their drawings. -/
theorem drawings_of_imported {drawings : List (List Instruction)}
    (h : Imported read run stdin inputs drawings) :
    (importAll read run stdin inputs).drawings = .ok drawings := by
  induction inputs generalizing stdin drawings with
  | nil =>
      cases drawings with
      | nil => rfl
      | cons drawing rest => cases h
  | cons first inputs ih =>
      rcases imported_cons.mp h with ⟨drawing, rest, rfl, hfirst, hrest⟩
      rw [importAll_cons, hfirst]
      simp only [ih hrest]
      rfl

/-- If one cannot, the command has the first failure. -/
theorem drawings_of_firstFailure {e : InputError ε}
    (h : FirstFailure read run stdin inputs earlier input e) :
    (importAll read run stdin inputs).drawings = .error (input, e) := by
  induction earlier generalizing stdin inputs with
  | nil =>
      rcases h with ⟨⟨later, rfl⟩, _, hfailure⟩
      rw [List.nil_append, importAll_cons, hfailure]
  | cons first earlier ih =>
      rcases h.position with ⟨later, rfl⟩
      rw [List.cons_append] at h ⊢
      rcases h.of_cons with ⟨⟨drawing, hfirst⟩, hrest⟩
      rw [importAll_cons, hfirst]
      simp only [ih hrest]
      rfl

/-- Nothing matters but the inputs up to the first failure. Files that are not among them
    can be different, and so can the standard input if it is not. -/
theorem importAll_of_agrees {e : InputError ε}
    (h : FirstFailure read run stdin inputs earlier input e)
    {other : String → Except ε (List UInt8)} {otherStdin : List UInt8}
    (hfiles : ∀ name ∈ earlier ++ [input], name ≠ "-" → other name = read name)
    (hstdin : "-" ∈ earlier ++ [input] → otherStdin = stdin) :
    importAll other run otherStdin inputs = importAll read run stdin inputs := by
  -- What an input holds that was asked for is the same.
  have hcontents : ∀ {stdin otherStdin : List UInt8} {name : String},
      (name ≠ "-" → other name = read name) → (name = "-" → otherStdin = stdin) →
      contentsAfter other otherStdin [] name = contentsAfter read stdin [] name := by
    intro stdin otherStdin name hfile hstdin
    unfold contentsAfter
    split
    · next hname => rw [hstdin hname]
    · next hname => exact hfile hname
  induction earlier generalizing stdin otherStdin inputs with
  | nil =>
      rcases h with ⟨⟨later, rfl⟩, _, hfailure⟩
      have hsame := hcontents (hfiles input (List.mem_singleton_self input))
        (fun hinput => hstdin (hinput ▸ List.mem_singleton_self input))
      have hother : importAfter other run otherStdin [] input = .error e := by
        rw [importAfter, hsame]
        exact hfailure
      rw [List.nil_append, importAll_cons, importAll_cons, hfailure, hother, hsame]
  | cons first earlier ih =>
      rcases h.position with ⟨later, rfl⟩
      rw [List.cons_append] at h hfiles hstdin ⊢
      rcases h.of_cons with ⟨⟨drawing, hfirst⟩, hrest⟩
      rcases List.forall_mem_cons.mp hfiles with ⟨hfile, hfiles⟩
      have hsame := hcontents hfile (fun hfirst => hstdin (hfirst ▸ List.mem_cons_self))
      have hother : importAfter other run otherStdin [] first = .ok drawing := by
        rw [importAfter, hsame]
        exact hfirst
      -- After an input named `-` the standard input is empty in both.
      have hleft : "-" ∈ earlier ++ [input] →
          stdinAfter otherStdin first = stdinAfter stdin first := by
        intro hmem
        rw [stdinAfter, stdinAfter, hstdin (List.mem_cons_of_mem first hmem)]
      rw [importAll_cons, importAll_cons, hfirst, hother, hsame]
      simp only [ih hrest hfiles hleft]

end Inputs

/-- The codec that a command line asks for exists, if it asks for one. -/
def Facilities.CodecFound {ε : Type} (w : Facilities ε) (a : Arguments) : Prop :=
  a.encoding = .absent ∨ ∃ name decode, a.encoding = .value name ∧ w.codec name = .ok decode

/-- How the command ends on an input that cannot be imported. -/
def Facilities.conclusion {ε : Type} (w : Facilities ε) : InputError ε → Conclusion ε
  | .file e => if w.isReported e then .returned 1 else .broken (.file e)
  | .fault (.report _) => .returned 1
  | .fault f => .broken (.fault f)

/-- What the command says about it, if it is the command's to report. -/
def Facilities.message? {ε : Type} (w : Facilities ε) (input : String) :
    InputError ε → Option String
  | .file e => if w.isReported e then some (w.message e) else none
  | .fault (.report r) => some (input ++ ": " ++ r.message)
  | .fault _ => none

theorem Facilities.conclusion_ne {ε : Type} (w : Facilities ε) (e : InputError ε) :
    w.conclusion e ≠ .returned 0 := by
  unfold conclusion
  cases e with
  | file e => cases h : w.isReported e <;> simp [h]
  | fault f => cases f <;> simp

/-- The command gets to the point where it writes drawings. -/
def Facilities.Writes {ε : Type} (w : Facilities ε) (read : String → Except ε (List UInt8))
    (stdin : List UInt8) (words : List String) : Prop :=
  ∃ file output, (w.prepare read stdin words).delivery = .write file output

section Preparation

variable {ε : Type} {w : Facilities ε} {read : String → Except ε (List UInt8)}
variable {stdin : List UInt8} {words : List String} {a : Arguments}

theorem missingCodec?_of_codecFound (h : w.CodecFound a) : w.missingCodec? a = none := by
  rcases h with habsent | ⟨name, codec, hname, hfind⟩
  · rw [Facilities.missingCodec?, habsent]
  · simp only [Facilities.missingCodec?, hname, hfind]

/-- A command that asks for a codec that there is not comes to nothing. -/
theorem exists_missingCodec (h : ¬w.CodecFound a) :
    ∃ stderr conclusion, w.missingCodec? a = some ⟨stderr, .finish conclusion ""⟩ ∧
      conclusion ≠ .returned 0 := by
  unfold Facilities.missingCodec?
  cases hencoding : a.encoding with
  | absent => exact absurd (.inl hencoding) h
  | blank => exact ⟨_, _, rfl, by simp⟩
  | value name =>
      cases hfind : w.codec name with
      | ok codec => exact absurd (.inr ⟨name, codec, hencoding, hfind⟩) h
      | error e =>
          simp only [hfind]
          cases e with
          | unknownCodec _ => exact ⟨_, _, rfl, by simp⟩
          | nullInName | malformed => exact ⟨_, _, rfl, by simp⟩

/-- Such a command looks at nothing. -/
theorem prepare_of_missingCodec {ending : Preparation ε}
    (hparse : Arguments.parse words = .ok a) (h : w.missingCodec? a = some ending) :
    w.prepare read stdin words = ending := by
  simp only [Facilities.prepare, hparse, h]

theorem prepare_of_imported {drawings : List (List Instruction)}
    (hparse : Arguments.parse words = .ok a) (hcodec : w.CodecFound a)
    (h : Imported read (w.run a.settings) stdin a.inputs drawings) :
    w.prepare read stdin words
      = ⟨printLog a.verbose (importAll read (w.run a.settings) stdin a.inputs).log,
          .write a.outputFile? (a.outputFormat.write drawings)⟩ := by
  simp only [Facilities.prepare, hparse, missingCodec?_of_codecFound hcodec,
    drawings_of_imported h]

theorem prepare_of_firstFailure {earlier : List String} {input : String} {e : InputError ε}
    (hparse : Arguments.parse words = .ok a) (hcodec : w.CodecFound a)
    (h : FirstFailure read (w.run a.settings) stdin a.inputs earlier input e) :
    w.prepare read stdin words
      = ⟨printLog a.verbose (importAll read (w.run a.settings) stdin a.inputs).log
            ++ (w.message? input e).elim "" errorLine,
          .finish (w.conclusion e) ""⟩ := by
  simp only [Facilities.prepare, hparse, missingCodec?_of_codecFound hcodec,
    drawings_of_firstFailure h]
  cases e with
  | file e =>
      cases hreported : w.isReported e with
      | true => simp [Facilities.message?, Facilities.conclusion, hreported]
      | false => simp [Facilities.message?, Facilities.conclusion, hreported]
  | fault f =>
      cases f with
      | report r => rfl
      | undefinedArithmetic | decoding | emptyLexeme | nothingToRead | nothingToSkip =>
          simp [Facilities.message?, Facilities.conclusion]

/-- The command writes just in case the codec exists and all inputs can be imported. -/
theorem writes_iff (hparse : Arguments.parse words = .ok a) :
    w.Writes read stdin words ↔
      w.CodecFound a ∧ ∃ drawings, Imported read (w.run a.settings) stdin a.inputs drawings := by
  constructor
  · rintro ⟨file, output, hwrite⟩
    by_cases hcodec : w.CodecFound a
    · refine ⟨hcodec, ?_⟩
      rcases imported_or_firstFailure read (w.run a.settings) stdin a.inputs with
        himported | ⟨earlier, input, e, hfailure⟩
      · exact himported
      · rw [prepare_of_firstFailure hparse hcodec hfailure] at hwrite
        cases hwrite
    · rcases exists_missingCodec hcodec with ⟨stderr, conclusion, hmissing, _⟩
      rw [prepare_of_missingCodec hparse hmissing] at hwrite
      cases hwrite
  · rintro ⟨hcodec, drawings, himported⟩
    exact ⟨_, _, congrArg Preparation.delivery (prepare_of_imported hparse hcodec himported)⟩

end Preparation

section Command

variable {δ ε : Type} {w : Surroundings δ ε} {disk : δ} {stdin : List UInt8}
variable {words : List String} {a : Arguments}

/-- What is left of a command that does not write. -/
theorem command_of_finish {stderr stdout : String} {conclusion : Conclusion ε}
    (h : w.prepare (w.read disk) stdin words = ⟨stderr, .finish conclusion stdout⟩) :
    w.command disk stdin words = ⟨conclusion, stdout, stderr, disk⟩ := by
  simp only [Surroundings.command, h]

/-- A command that does not write leaves everything as it was, and does not succeed. -/
theorem command_of_not_writes (hparse : Arguments.parse words = .ok a)
    (h : ¬w.Writes (w.read disk) stdin words) :
    (w.command disk stdin words).stdout = "" ∧ (w.command disk stdin words).disk = disk ∧
      (w.command disk stdin words).conclusion ≠ .returned 0 := by
  rw [writes_iff hparse] at h
  by_cases hcodec : w.CodecFound a
  · rcases imported_or_firstFailure (w.read disk) (w.run a.settings) stdin a.inputs with
      himported | ⟨earlier, input, e, hfailure⟩
    · exact absurd ⟨hcodec, himported⟩ h
    · rw [command_of_finish (prepare_of_firstFailure hparse hcodec hfailure)]
      exact ⟨rfl, rfl, w.conclusion_ne e⟩
  · rcases exists_missingCodec hcodec with ⟨stderr, conclusion, hmissing, hne⟩
    rw [command_of_finish (prepare_of_missingCodec hparse hmissing)]
    exact ⟨rfl, rfl, hne⟩

/-- What is left of a command that prints the drawings. -/
theorem command_of_print {stderr output : String}
    (h : w.prepare (w.read disk) stdin words = ⟨stderr, .write none output⟩) :
    w.command disk stdin words = ⟨.returned 0, output, stderr, disk⟩ := by
  simp only [Surroundings.command, h]

/-- What is left of a command that writes a file: the files as writing leaves them, and a
    message if it failed. -/
theorem command_of_write {stderr output path : String} {failure : Option ε} {left : δ}
    (h : w.prepare (w.read disk) stdin words = ⟨stderr, .write (some path) output⟩)
    (hwrite : w.write disk path output.toUTF8.toList = (failure, left)) :
    w.command disk stdin words
      = ⟨failure.elim (.returned 0) fun e => w.conclusion (.file e), "",
          stderr ++ (failure.bind fun e => w.message? path (.file e)).elim "" errorLine,
          left⟩ := by
  simp only [Surroundings.command, h, hwrite]
  cases failure with
  | none => simp
  | some e =>
      cases hreported : w.isReported e with
      | true => simp [Facilities.message?, Facilities.conclusion, hreported]
      | false => simp [Facilities.message?, Facilities.conclusion, hreported]

end Command

/-- The plain form of several drawings is the plain forms of each, one after the other. -/
theorem write_text_eq (drawings : List (List Instruction)) :
    OutputFormat.text.write drawings
      = String.join (drawings.map fun drawing =>
          String.join (drawing.map fun i => i.text ++ "\n")) := by
  simp only [OutputFormat.write]
  induction drawings with
  | nil => rfl
  | cons drawing drawings ih =>
      rw [List.flatten_cons, List.map_append, String.join_append, ih, List.map_cons,
        String.join_cons]

/-- The command is all or nothing, whatever codecs and files there are. It gets to the
    point where it writes just in case the codec asked for exists and all inputs can be
    imported, in the order in which they are given. Short of that nothing is printed, no
    file is written to, and the command does not succeed.

    If it gets there, it has what it writes from the drawings: in the plain form, one line
    for each instruction of each input in turn. Without a file to write it prints that and
    succeeds. With one it prints nothing, and ends as the attempt to write the file has it:
    it succeeds if there is no error, and otherwise reports the error. If the files keep
    what is written to them, the file that was written then holds just what the command had
    to write, and in any case other files hold what they held before.

    Otherwise one input is the first that cannot be imported, and the command ends as that
    failure has it, with one message after the log if it is the command's to report. What
    was not asked for up to there, whether files or the standard input, makes no
    difference. A codec that does not exist is found before anything else is looked at. -/
theorem command_all_or_nothing {δ ε : Type} (w : Surroundings δ ε) (disk : δ)
    (stdin : List UInt8) (words : List String) (a : Arguments)
    (hparse : Arguments.parse words = .ok a) :
    let after := w.command disk stdin words
    let imported := Imported (w.read disk) (w.run a.settings) stdin a.inputs
    let fails := FirstFailure (w.read disk) (w.run a.settings) stdin a.inputs
    let log := printLog a.verbose (importAll (w.read disk) (w.run a.settings) stdin a.inputs).log
    (w.Writes (w.read disk) stdin words ↔ w.CodecFound a ∧ ∃ drawings, imported drawings) ∧
    (¬w.Writes (w.read disk) stdin words →
      after.stdout = "" ∧ after.disk = disk ∧ after.conclusion ≠ .returned 0) ∧
    (∀ drawings, w.CodecFound a → imported drawings →
      let output := a.outputFormat.write drawings
      (a.outputFormat = .text → output = String.join (drawings.map fun drawing =>
        String.join (drawing.map fun i => i.text ++ "\n"))) ∧
      (a.outputFile? = none → after = ⟨.returned 0, output, log, disk⟩) ∧
      (∀ path left, a.outputFile? = some path →
        w.write disk path output.toUTF8.toList = (none, left) →
        after = ⟨.returned 0, "", log, left⟩ ∧
        ∀ f : w.Filing, f.Keeps disk path →
          w.read after.disk path = .ok output.toUTF8.toList) ∧
      (∀ path e left, a.outputFile? = some path →
        w.write disk path output.toUTF8.toList = (some e, left) →
        after = ⟨w.conclusion (.file e), "",
          log ++ (w.message? path (.file e)).elim "" errorLine, left⟩) ∧
      (∀ path, a.outputFile? = some path → ∀ (f : w.Filing) (other : String),
        ¬f.SameFile disk path other → ∀ contents,
          w.read after.disk other = .ok contents ↔ w.read disk other = .ok contents)) ∧
    ((∃ drawings, imported drawings) ∨ ∃ earlier input e, fails earlier input e) ∧
    (∀ earlier input e, w.CodecFound a → fails earlier input e →
      ¬w.Writes (w.read disk) stdin words ∧
      after = ⟨w.conclusion e, "", log ++ (w.message? input e).elim "" errorLine, disk⟩ ∧
      (∀ other otherStdin,
        (∀ name ∈ earlier ++ [input], name ≠ "-" → other name = w.read disk name) →
        ("-" ∈ earlier ++ [input] → otherStdin = stdin) →
        w.prepare other otherStdin words = w.prepare (w.read disk) stdin words)) ∧
    (¬w.CodecFound a →
      (∀ other otherStdin,
        w.prepare other otherStdin words = w.prepare (w.read disk) stdin words) ∧
      (∀ name unknown, a.encoding = .value name → w.codec name = .error (.unknownCodec unknown) →
        after = ⟨.returned 1, "", errorLine ("unknown encoding '" ++ name ++ "'"), disk⟩)) := by
  intro after imported fails log
  refine ⟨writes_iff hparse, command_of_not_writes hparse, ?_,
    imported_or_firstFailure _ _ _ _, ?_, ?_⟩
  · intro drawings hcodec himported output
    have hprepare := prepare_of_imported hparse hcodec himported
    have hafter : ∀ {path failure left}, a.outputFile? = some path →
        w.write disk path output.toUTF8.toList = (failure, left) →
        after = ⟨failure.elim (.returned 0) fun e => w.conclusion (.file e), "",
          log ++ (failure.bind fun e => w.message? path (.file e)).elim "" errorLine, left⟩ :=
      fun hpath hwrite => command_of_write (hpath ▸ hprepare) hwrite
    refine ⟨?_, ?_, ?_, ?_, ?_⟩
    · intro hformat
      change a.outputFormat.write drawings = _
      rw [hformat, write_text_eq]
    · intro hnone
      exact command_of_print (hnone ▸ hprepare)
    · intro path left hpath hwrite
      have hwritten := hafter hpath hwrite
      refine ⟨by simpa using hwritten, fun f hkeeps => ?_⟩
      rw [hwritten]
      exact f.read_written hwrite hkeeps
    · intro path e left hpath hwrite
      exact hafter hpath hwrite
    · intro path hpath f other hother contents
      rw [hafter hpath rfl]
      exact f.read_other rfl hother contents
  · intro earlier input e hcodec hfailure
    have hprepare := prepare_of_firstFailure hparse hcodec hfailure
    refine ⟨?_, command_of_finish hprepare, ?_⟩
    · rintro ⟨file, output, hwrite⟩
      rw [hprepare] at hwrite
      cases hwrite
    · intro other otherStdin hfiles hstdin
      simp only [Facilities.prepare, hparse, importAll_of_agrees hfailure hfiles hstdin]
  · intro hcodec
    rcases exists_missingCodec hcodec with ⟨stderr, conclusion, hmissing, _⟩
    refine ⟨?_, ?_⟩
    · intro other otherStdin
      rw [prepare_of_missingCodec hparse hmissing, prepare_of_missingCodec hparse hmissing]
    · intro name unknown hname hfind
      have hunknown : w.missingCodec? a = some ⟨errorLine ("unknown encoding '" ++ name ++ "'"),
          .finish (.returned 1) ""⟩ := by
        simp only [Facilities.missingCodec?, hname, hfind]
      exact command_of_finish (prepare_of_missingCodec hparse hunknown)

/-- What comes of importing a program is in the run that a process has made when it has
    nothing left to do. -/
theorem importContents_of_tasks_nil {settings : Settings} {program : List UInt8} {n : Nat}
    {p : Process} (hp : (Process.start (.start settings (.bytes program)) .input).after n = p)
    (h : p.tasks.isEmpty = true) :
    importContents (Facilities.standard.run settings) (.ok program : Except FileError _)
      = p.run.drawing.mapError .fault := by
  subst hp
  have hrun : importSource settings (.bytes program) = _ :=
    Process.runFrom_eq_of_tasks_nil (List.isEmpty_iff.mp h)
  rw [importContents, Facilities.run_standard, hrun]
  split
  · next f hdrawing => rw [hdrawing]; rfl
  · next drawing hdrawing => rw [hdrawing]; rfl

/-- A file and the standard input, both drawn into another file: that one has the drawings
    of both in turn, and the first file is still there. If the standard input comes first
    and fails after a line, nothing of it gets into the output file, and the file that
    comes after it does not matter. -/
theorem command_all_or_nothing_file_and_standard_input :
    let program := "0 0 moveto 1 1 lineto stroke".toUTF8.toList
    let disk : Disk := ⟨[(["one.ps"], program)], [[]]⟩
    let written := runCommand disk "2 2 moveto 3 4 lineto fill".toUTF8.toList
      ["-o", "out.txt", "one.ps", "-"]
    let stdin := "0 0 moveto 1 1 lineto stroke\npop".toUTF8.toList
    let words := ["-o", "out.txt", "-", "one.ps"]
    (written.conclusion = .returned 0 ∧ written.stdout = "" ∧
      written.disk.read "out.txt"
        = .ok "MOVE 0 0\nLINE 1 1\nEND\nMOVE 2 2\nLINE 3 4\nEND\n".toUTF8.toList ∧
      written.disk.read "one.ps" = .ok program) ∧
    runCommand disk stdin words
      = ⟨.returned 1, "", "PostPath Error: -: /stackunderflow in --pop-- (line 2)\n", disk⟩ ∧
    ∀ other, Facilities.standard.prepare other stdin words
      = Facilities.standard.prepare disk.read stdin words := by
  intro program disk written stdin words
  refine ⟨?_, ?_⟩
  · let a : Arguments := { Arguments.plain ["one.ps", "-"] with output := .value "out.txt" }
    let stdin := "2 2 moveto 3 4 lineto fill".toUTF8.toList
    let p (program : List UInt8) :=
      (Process.start (.start a.settings (.bytes program)) .input).after 20
    let drawings := [program, stdin].map fun program => (p program).run.machine.drawing ++ [.finish]
    have hparse : Arguments.parse ["-o", "out.txt", "one.ps", "-"] = .ok a :=
      eq_ok_of_toOption (by decide +kernel)
    have hsource : disk.LeadsTo "one.ps" (.inside ["one.ps"]) :=
      eq_ok_of_toOption (by decide +kernel)
    have htarget : disk.LeadsTo "out.txt" (.inside ["out.txt"]) :=
      eq_ok_of_toOption (by decide +kernel)
    have hread : disk.read "one.ps" = .ok program :=
      Disk.read_eq_ok_iff.mpr ⟨by decide +kernel, _, hsource, by decide +kernel, rfl⟩
    have hend : ((p program).tasks.isEmpty = true ∧ (p program).run.fault? = none) ∧
        (p stdin).tasks.isEmpty = true ∧ (p stdin).run.fault? = none := by decide +kernel
    have hdrawing : ∀ {program}, (p program).tasks.isEmpty = true →
        (p program).run.fault? = none →
        importContents (Facilities.standard.run a.settings) (.ok program : Except FileError _)
          = .ok ((p program).run.machine.drawing ++ [.finish]) := by
      intro program htasks hfault
      rw [importContents_of_tasks_nil rfl htasks, Run.drawing, hfault]
      rfl
    have himported : Imported disk.read (Facilities.standard.run a.settings) stdin a.inputs
        drawings := by
      refine imported_cons.mpr ⟨_, _, rfl, ?_, imported_cons.mpr ⟨_, _, rfl, ?_, rfl⟩⟩
      · rw [importAfter, contentsAfter, if_neg (by decide), hread]
        exact hdrawing hend.1.1 hend.1.2
      · exact hdrawing hend.2.1 hend.2.2
    have houtput : a.outputFormat.write drawings
        = "MOVE 0 0\nLINE 1 1\nEND\nMOVE 2 2\nLINE 3 4\nEND\n" := by decide +kernel
    rcases Disk.exists_write_eq_ok (by decide +kernel) htarget (by decide +kernel)
      (a.outputFormat.write drawings).toUTF8.toList with ⟨left, hleft⟩
    have hwrite : Disk.surroundings.write disk "out.txt"
        (a.outputFormat.write drawings).toUTF8.toList = (none, left) := by
      simp only [Disk.surroundings, hleft]
    rcases command_all_or_nothing Disk.surroundings disk stdin _ a hparse with ⟨_, _, hwrites, _⟩
    rcases hwrites _ (.inl rfl) himported with ⟨_, _, hdone, _, hothers⟩
    rcases hdone "out.txt" left rfl hwrite with ⟨hafter, hholds⟩
    have hother : ¬Disk.filing.SameFile disk "out.txt" "one.ps" := by
      rintro ⟨place, hplace, hplace'⟩
      cases hplace.symm.trans htarget
      exact absurd (Except.ok.inj (hplace'.symm.trans hsource)) (by decide)
    refine ⟨congrArg Aftermath.conclusion hafter, congrArg Aftermath.stdout hafter, ?_, ?_⟩
    · rw [← houtput]
      exact hholds Disk.filing ⟨_, htarget⟩
    · exact (hothers "out.txt" rfl Disk.filing "one.ps" hother program).mpr hread
  · let a : Arguments := { Arguments.plain ["-", "one.ps"] with output := .value "out.txt" }
    let report : Report := ⟨.stackUnderflow, some "pop", some 2, none⟩
    have hparse : Arguments.parse words = .ok a := eq_ok_of_toOption (by decide +kernel)
    have hend : let p := (Process.start (.start a.settings (.bytes stdin)) .input).after 20
        p.tasks.isEmpty = true ∧ p.run.fault? = some (.report report) := by
      decide +kernel
    have hfailure : FirstFailure disk.read (Facilities.standard.run a.settings) stdin a.inputs
        [] "-" (.fault (.report report)) := by
      refine ⟨⟨["one.ps"], rfl⟩, ⟨[], rfl⟩, ?_⟩
      change importContents _ (.ok stdin) = _
      rw [importContents_of_tasks_nil rfl hend.1, Run.drawing, hend.2]
      rfl
    rcases command_all_or_nothing Disk.surroundings disk stdin words a hparse with
      ⟨_, _, _, _, hfailed, _⟩
    rcases hfailed [] "-" _ (.inl rfl) hfailure with ⟨_, hafter, hsame⟩
    have hmessage : "" ++ errorLine ("-: " ++ report.message)
        = "PostPath Error: -: /stackunderflow in --pop-- (line 2)\n" := by
      decide +kernel
    refine ⟨?_, ?_⟩
    · rw [← hmessage]
      exact hafter
    · intro other
      refine hsame other stdin ?_ (fun _ => rfl)
      intro name hname hne
      exact absurd (List.mem_singleton.mp hname) hne

end PathScript
