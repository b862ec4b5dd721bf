import DumpDialect.Command.Run
import DumpDialect.Proofs.Command.FileTree
import DumpDialect.Proofs.Insert.Bytes
import DumpDialect.Quoting

/-!
# The command on two files

Called with the name of a dump and the name of another file, the command writes the conversion of
the dump to that file. Messages show on standard error alone, so all that happens in between leaves
the files as they are.

- `parse_files`: the options of such a call.
- `Desk.Runs`: what an action gives and the files after it, and two actions one after the other
  (`Runs.bind`).
- `runs_command`: the exit code and the files after the call.
- `bytes_pass_through`: rows with values of any bytes.
-/

namespace DumpDialect

/-! ## Arguments -/

theorem ne_separator_of_read {name : Text} (h : Argument.read name = .ok (.plain name)) :
    name ≠ "--" := by
  rintro rfl
  have hread : Argument.read "--" =
      .error (.ambiguous "--" ((Argument.longCandidates "--").map Prod.fst)) := by rfl
  rw [hread] at h
  cases h

/-- The options of a call with the names of two files. -/
theorem parse_files {input output : Text} (hinput : Argument.read input = .ok (.plain input))
    (houtput : Argument.read output = .ok (.plain output)) (hne : input ≠ []) (hne' : output ≠ []) :
    Options.parse [input, "-o", output] = .ok { input := some input, output := some output } := by
  have hswitch : Argument.read "-o" = .ok (.switch .output) := by rfl
  have hread : Argument.readAll [input, "-o", output] =
      .ok [.plain input, .switch .output, .plain output] := by
    rw [Argument.readAll, if_neg (ne_separator_of_read hinput), hinput, Argument.readAll,
      if_neg (by decide), hswitch, Argument.readAll, if_neg (ne_separator_of_read houtput), houtput]
    rfl
  have hinput' : fileName? input = some input := if_neg hne
  have houtput' : fileName? output = some output := if_neg hne'
  rw [Options.parse, hread]
  simp [Options.take, Options.bundle?, Bundle.ofSwitch, Switch.takesValue, Options.Progress.plain,
    Options.Progress.settle, Options.set, hinput', houtput', bind, Except.bind, pure, Except.pure]

/-! ## Actions -/

namespace Desk

/-- The action gives this result and leaves these files. -/
def Runs {α : Type} (action : StateM Desk α) (desk : Desk) (a : α) (tree : FileTree) : Prop :=
  ∃ desk' : Desk, action.run desk = (a, desk') ∧ desk'.tree = tree

namespace Runs

variable {α β : Type} {desk : Desk} {tree tree' : FileTree}

theorem pure (desk : Desk) (a : α) : Runs (Pure.pure a) desk a desk.tree := ⟨desk, rfl, rfl⟩

/-- Two actions one after the other. All that the second sees of the first is its result and the
files that it leaves. -/
theorem bind {action : StateM Desk α} {next : α → StateM Desk β} {a : α} {b : β}
    (h : Runs action desk a tree)
    (hnext : ∀ desk' : Desk, desk'.tree = tree → Runs (next a) desk' b tree') :
    Runs (action >>= next) desk b tree' := by
  obtain ⟨desk', hrun, htree⟩ := h
  have hbind : (action >>= next).run desk = (next a).run desk' := by
    rw [StateT.run_bind, hrun]
    rfl
  rw [Runs, hbind]
  exact hnext desk' htree

end Runs

variable (desk : Desk)

/-- Without a log file a message shows on standard error alone. -/
theorem runs_say {o : Options} (h : o.logFile = none) (message : Message) :
    Runs (say o message) desk () desk.tree := by
  have hlog : o.log? = none := by rw [Options.log?, h, Option.map_none]
  rw [say, hlog]
  split
  · exact ⟨_, rfl, rfl⟩
  · exact .pure desk ()

theorem runs_forM {α : Type} {act : α → StateM Desk Unit}
    (h : ∀ (a : α) (desk : Desk), Runs (act a) desk () desk.tree) (as : List α) :
    Runs (as.forM act) desk () desk.tree := by
  induction as generalizing desk with
  | nil => exact .pure desk ()
  | cons a as ih =>
    show Runs (act a >>= fun _ => as.forM act) desk () desk.tree
    exact (h a desk).bind fun desk' htree => htree ▸ ih desk'

/-- A file that is named is opened. -/
theorem runs_openNamed {opener : Text → StateM Desk (Except FileError Unit)} {name : Text}
    {tree : FileTree} (h : Runs (opener name) desk (.ok ()) tree) :
    Runs (openNamed opener (some name)) desk none tree :=
  h.bind fun desk' htree => htree ▸ .pure desk' none

theorem runs_openFile {make clear : Bool} {name : Text} {tree : FileTree}
    (h : desk.tree.openFile make clear name = .ok tree) :
    Runs (openFile make clear name) desk (.ok ()) tree := by
  refine ⟨{ desk with tree }, ?_, rfl⟩
  simp only [openFile, StateT.run_bind, StateT.run_get, pure_bind, h]
  rfl

theorem runs_read (name : Text) :
    Runs (Host.read name) desk (desk.tree.bytesOf name) desk.tree := ⟨desk, rfl, rfl⟩

theorem runs_overwrite (name : Text) (bytes : List UInt8) :
    Runs (Host.overwrite name bytes) desk ()
      (desk.tree.update name fun old => bytes ++ old.drop bytes.length) := ⟨_, rfl, rfl⟩

end Desk

/-! ## Calls -/

/-- The arguments `input` and `output` name different files: the one at `source` is there and holds
the dump, and the one at `target` can be written and keeps what is written to it. -/
structure FileTree.TwoFiles (t : FileTree) (input output : Text) (source target : Path)
    (dump : List UInt8) : Prop where
  inputPlain : Argument.read input = .ok (.plain input)
  outputPlain : Argument.read output = .ok (.plain output)
  inputPlace : t.resolve false input = .ok source
  outputPlace : t.resolve true output = .ok target
  sourceNoFolder : t.isFolder source = false
  targetNoFolder : t.isFolder target = false
  dump : t.file? source = some dump
  kept : target ≠ nullDevice
  distinct : source ≠ target

namespace Desk

open FileTree

variable {desk : Desk} {input output : Text} {source target : Path} {dump : List UInt8}

/-- The files are open, and the one to write is empty. -/
theorem runs_convertOpened [Quoting] {o : Options} (hinput : o.input = some input)
    (houtput : o.output = some output) (hlog : o.logFile = none)
    (hread : desk.tree.resolve false input = .ok source)
    (hdump : desk.tree.file? source = some dump)
    (hwrite : desk.tree.resolve false output = .ok target)
    (hempty : desk.tree.file? target = some []) :
    let t := convertText o.config (dumpText dump)
    Runs (convertOpened o) desk (if t.error?.isSome then 1 else 0)
      (desk.tree.put target (Text.encode t.text)) := by
  intro t
  have htell (message : Message) (desk : Desk) := desk.runs_say hlog message
  have hevents (desk : Desk) := desk.runs_forM (fun (event : Event) => htell event.message) t.events
  have hsummary (desk : Desk) := desk.runs_forM htell (summary t.state)
  -- What is said may change the desk, but not its tree, so the write may come before or after it.
  have hwritten (desk' : Desk) (htree : desk'.tree = desk.tree) :
      Runs (Host.overwrite output (Text.encode t.text)) desk' ()
        (desk.tree.put target (Text.encode t.text)) := by
    have hupdate := update_eq hwrite hempty fun old =>
      Text.encode t.text ++ old.drop (Text.encode t.text).length
    rw [List.drop_nil, List.append_nil] at hupdate
    rw [← hupdate, ← htree]
    exact desk'.runs_overwrite output (Text.encode t.text)
  rw [convertOpened, hinput, houtput]
  simp only
  refine (desk.runs_read input).bind fun desk₁ htree₁ => ?_
  rw [bytesOf_eq hread hdump]
  refine (hevents desk₁).bind fun desk₂ htree₂ => ?_
  have htree := htree₂.trans htree₁
  -- An error is told before the rest is written, the summary only without one.
  cases herror : t.error? with
  | none =>
    simp only [t] at herror
    simp only
    refine (hwritten desk₂ htree).bind fun desk₃ htree₃ => ?_
    refine (hsummary desk₃).bind fun desk₄ htree₄ => ?_
    exact htree₃ ▸ htree₄ ▸ .pure desk₄ 0
  | some e =>
    simp only [t] at herror
    simp only
    refine (htell _ desk₂).bind fun desk₃ htree₃ => ?_
    refine (hwritten desk₃ (htree₃.trans htree)).bind fun desk₄ htree₄ => ?_
    exact htree₄ ▸ .pure desk₄ 1

/-- The call writes the conversion of the dump, also if an error ended it early, and tells of that
error by its exit code. -/
theorem runs_command [Quoting] (h : desk.tree.TwoFiles input output source target dump) :
    let t := convertText (Options.config {}) (dumpText dump)
    ∃ tree : FileTree,
      Runs (runCommand [input, "-o", output]) desk (if t.error?.isSome then 1 else 0) tree ∧
        tree.file? target = some (Text.encode t.text) := by
  intro t
  let o : Options := { input := some input, output := some output }
  have hparse : Options.parse [input, "-o", output] = .ok o :=
    parse_files h.inputPlain h.outputPlain (ne_nil_of_resolve h.inputPlace)
      (ne_nil_of_resolve h.outputPlace)
  -- The input is read after the output was emptied, but the two are different files.
  let cleared := desk.tree.put target []
  have hempty : cleared.file? target = some [] := file?_put_self h.kept []
  have hdump : cleared.file? source = some dump := by
    rw [file?_put_of_ne h.distinct, h.dump]
  refine ⟨cleared.put target (Text.encode t.text), ?_, file?_put_self h.kept _⟩
  have hlog : Runs (openNamed Host.openToAppend o.log?) desk none desk.tree := .pure desk none
  rw [runCommand, hparse]
  refine hlog.bind fun desk₁ htree₁ => ?_
  refine (desk₁.runs_say rfl _).bind fun desk₂ htree₂ => ?_
  have htree : desk₂.tree = desk.tree := htree₂.trans htree₁
  -- Opening to write empties the output; that is where the tree changes for the first time.
  have hread : Runs (Host.openToRead input) desk₂ (.ok ()) desk.tree := by
    refine desk₂.runs_openFile ?_
    rw [htree]
    exact openFile_to_read h.inputPlace h.sourceNoFolder h.dump
  refine (desk₂.runs_openNamed hread).bind fun desk₃ htree₃ => ?_
  have hwrite : Runs (Host.openToWrite output) desk₃ (.ok ()) cleared := by
    refine desk₃.runs_openFile ?_
    rw [htree₃]
    exact openFile_to_write h.outputPlace h.targetNoFolder
  refine (desk₃.runs_openNamed hwrite).bind fun desk₄ htree₄ => ?_
  rw [← htree₄] at hempty hdump ⊢
  refine runs_convertOpened rfl rfl rfl ?_ hdump ?_ hempty
  · exact htree₄ ▸ resolve_put target [] h.inputPlace
  · exact htree₄ ▸ resolve_put target [] (resolve_of_make h.outputPlace)

end Desk

/-! ## Rows of any bytes -/

/-- **Bytes pass through.** Take a file of INSERT statements, one on a line, each with a list of
columns and a value of any bytes but those of LF, CR, the single quote and the backslash, UTF-8 or
not. No value may be a timestamp with a zone, and neither it nor the table may hold the marker of a
sequence value. The command, called with the file and the name of another, succeeds, and the other
file then holds the four lines of the banner and the same lines with their columns in backticks. -/
theorem bytes_pass_through [Quoting] (desk : Desk) {input output : Text} {source target : Path}
    {dump : List UInt8} (hfiles : desk.tree.TwoFiles input output source target dump)
    (rows : List Insert.ByteRow) (hdump : IsMadeOf 0x0A (rows.map Insert.ByteRow.dumped) dump) :
    let after : UInt32 × Desk := (runCommand [input, "-o", output] : StateM Desk UInt32).run desk
    let head : List Text :=
      ["--", "-- Generated by pg2mysql", "--", "set foreign_key_checks = off;"]
    after.1 = 0 ∧ after.2.tree.file? target =
      some ((head.map Text.encode ++ rows.map Insert.ByteRow.converted).flatMap
        (· ++ [0x0A])) := by
  intro after head
  obtain ⟨tree, ⟨desk', hrun, rfl⟩, htarget⟩ := Desk.runs_command hfiles
  have hcfg : Insert.ByteRow.KeepsRows (Options.config {}) := ⟨rfl, rfl, rfl⟩
  obtain ⟨herror, htext⟩ := Insert.ByteRow.encode_text_of_rows hcfg hdump
  have hafter : after = (0, desk') := by
    rw [dumpText, herror] at hrun
    exact hrun
  rw [hafter]
  exact ⟨rfl, htarget.trans (congrArg some htext)⟩

/-- Two rows, the second without LF. The first value ends in the middle of a character, and the
other holds an overlong form and the encoding of a surrogate behind a character. -/
theorem broken_encodings_pass_through :
    let first : List UInt8 := [0xE2, 0x82]
    let second : List UInt8 := [0xC3, 0xA9, 0xC0, 0xAF, 0xED, 0xA0, 0x80]
    let row (columns : Text) (value : List UInt8) : List UInt8 :=
      Text.encode ("INSERT INTO a.t (" ++ columns ++ ") VALUES (1, \x27") ++ value ++
        Text.encode "\x27);"
    let dump := row "x, y" first ++ [0x0A] ++ row "x, y" second
    let desk : Desk := { tree := { files := [(["tmp", "work", "in"], dump)] } }
    let columns : Text := "\x60x\x60,\x60y\x60"
    let after : UInt32 × Desk := (runCommand ["in", "-o", "out"] : StateM Desk UInt32).run desk
    let head : List Text :=
      ["--", "-- Generated by pg2mysql", "--", "set foreign_key_checks = off;"]
    after.1 = 0 ∧ after.2.tree.file? ["tmp", "work", "out"] =
      some ((head.map Text.encode ++ [row columns first, row columns second]).flatMap
        (· ++ [0x0A])) := by
  intro first second row dump desk columns
  have htime {value : List UInt8} (h : (Text.decode value).head?.any Symbol.isDigit = false) :
      ¬ Insert.ZonedTime (Text.decode value) := by
    intro hzoned
    have hdigit := hzoned.isDigit_head?
    rw [h] at hdigit
    cases hdigit
  -- Neither value holds a time with a zone, nor a quote or a backslash to be changed.
  let r : Insert.ByteRow := ⟨"a.t", ["x", "y"], first, by decide, by decide, by decide, by decide,
    by decide, by decide +kernel, by decide +kernel, htime (by decide +kernel)⟩
  let r' : Insert.ByteRow := ⟨"a.t", ["x", "y"], second, by decide, by decide, by decide, by decide,
    by decide, by decide +kernel, by decide +kernel, htime (by decide +kernel)⟩
  have hfiles : desk.tree.TwoFiles "in" "out" ["tmp", "work", "in"] ["tmp", "work", "out"] dump :=
    ⟨rfl, rfl, rfl, rfl, by decide, by decide, rfl, by decide, by decide⟩
  have hdump : IsMadeOf 0x0A ([r, r'].map Insert.ByteRow.dumped) dump := .inr rfl
  have hrows : [r, r'].map Insert.ByteRow.converted = [row columns first, row columns second] := rfl
  rw [← hrows]
  exact bytes_pass_through desk hfiles [r, r'] hdump

end DumpDialect
