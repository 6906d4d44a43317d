import Scaffold.Proofs.Definition.Directory
import Scaffold.Proofs.Run.FinalTree
import Scaffold.Run.Toolbox

/-!
# Runs do not see the order of listings

  A run reads a directory once and writes files from then on. The definitions
  are the same in whatever order the directory lists them; so are the attempts
  of the run, and every attempt comes to the same in workspaces that are alike
  and leaves them alike. A formatter changes nothing about this if it does not
  look at the order either, and no common command does.
-/

namespace Scaffold

open Files (Tree Location IsEntryName)
open Definition (IsDefinitionFile)

/-- The workspaces have the same files and directories, in whatever order, and the same has been
    printed. -/
structure Workspace.Alike (w w' : Workspace) : Prop where
  files : w.files.Alike w'.files
  printed : w.printed = w'.printed

/-- On no path does the formatter do different things in workspaces that are alike. -/
def Command.Effect.IgnoresOrder (effect : Command.Effect) (formatter : Option Command) : Prop :=
  ∀ (p : Path) (w w' : Workspace), w.Alike w' →
    (w.formatted effect formatter p).Alike (w'.formatted effect formatter p)

/-! ## Common commands -/

/-- What is done to workspaces that are alike leaves them alike. -/
def Workspace.KeepsAlike (f : Workspace → Workspace) : Prop :=
  ∀ {w w' : Workspace}, w.Alike w' → (f w).Alike (f w')

namespace Toolbox

open Workspace (KeepsAlike)

theorem alike_change {w w' : Workspace} (h : w.Alike w') {r r' : Except Files.Fault Tree}
    (hr : Tree.SameChange r r') : (change w r).Alike (change w' r') := by
  cases hr with
  | ok htree => exact ⟨htree, h.printed⟩
  | error f => exact h

theorem contents_alike {w w' : Workspace} (h : w.Alike w') (path : String) :
    contents w path = contents w' path := by
  rw [contents, contents, h.files.read]

theorem keepsAlike_print (text : String) : KeepsAlike fun w => w.print text :=
  fun h => ⟨h.files, congrArg (· ++ text) h.printed⟩

/-- What is done for each argument in turn. -/
theorem keepsAlike_foldl {f : Workspace → String → Workspace}
    (hf : ∀ argument, KeepsAlike fun w => f w argument) (arguments : List String) :
    KeepsAlike fun w => arguments.foldl f w := by
  intro w w' h
  induction arguments generalizing w w' with
  | nil => exact h
  | cons argument arguments ih => exact ih (hf argument h)

theorem keepsAlike_cat (arguments : List String) : KeepsAlike (cat arguments) := by
  refine keepsAlike_foldl (fun path {w w'} h => ?_) arguments
  dsimp only
  rw [contents_alike h]
  cases contents w' path with
  | ok bytes => exact keepsAlike_print _ h
  | error f => exact h

theorem keepsAlike_cp (arguments : List String) : KeepsAlike (cp arguments) := by
  intro w w' h
  unfold cp
  split
  · rename_i source target
    rw [contents_alike h]
    cases contents w' source with
    | ok bytes => exact alike_change h (h.files.writeFile ⟨target⟩ bytes)
    | error f => exact h
  · exact h

theorem keepsAlike_touch (arguments : List String) : KeepsAlike (touch arguments) := by
  refine keepsAlike_foldl (fun path {w w'} h => ?_) arguments
  dsimp only
  rw [h.files.find]
  cases w'.files.find ⟨path⟩ with
  | ok l => exact h
  | error f => exact alike_change h (h.files.writeFile ⟨path⟩ ByteArray.empty)

theorem keepsAlike_rm (arguments : List String) : KeepsAlike (rm arguments) := by
  refine keepsAlike_foldl (fun path {w w'} h => ?_) _
  dsimp only
  rw [h.files.find]
  cases w'.files.find ⟨path⟩ with
  | ok l =>
      dsimp only
      rw [h.files.isDirectoryAt]
      split
      · exact h
      · exact ⟨h.files.erase l, h.printed⟩
  | error f => exact h

theorem keepsAlike_effect (c : Command) : KeepsAlike (effect c) := by
  unfold effect
  split
  · exact keepsAlike_print _
  · exact keepsAlike_cat c.arguments
  · exact keepsAlike_cp c.arguments
  · exact keepsAlike_touch c.arguments
  · exact keepsAlike_rm c.arguments
  · exact id

/-- No common command looks at the order in which names are listed. -/
theorem ignoresOrder_effect (formatter : Option Command) : effect.IgnoresOrder formatter := by
  intro p w w' h
  cases formatter with
  | none => exact h
  | some c => exact keepsAlike_effect (c.onPath p) h

end Toolbox

/-! ## Writers -/

/-- What the writer does to workspaces that are alike is the same, and it leaves them alike. -/
def Writer.IgnoresOrder (writer : Writer Workspace) : Prop :=
  ∀ (w w' : Workspace) (p : Path) (text : String), w.Alike w' →
    (writer w p text).1 = (writer w' p text).1 ∧ (writer w p text).2.Alike (writer w' p text).2

theorem Workspace.ignoresOrder_writer {effect : Command.Effect} {formatter : Option Command}
    (h : effect.IgnoresOrder formatter) : (Workspace.writer effect formatter).IgnoresOrder := by
  intro w w' p text hw
  obtain ⟨hresult, hfiles⟩ := hw.files.write p text.toUTF8
  rw [writer_fst, writer_fst, writer_snd, writer_snd, hresult]
  refine ⟨rfl, ?_⟩
  cases (w'.files.write p text.toUTF8).1 with
  | error f => exact ⟨hfiles, hw.printed⟩
  | ok u => exact h p _ _ ⟨hfiles, hw.printed⟩

theorem Settings.ignoresOrder_writer {effect : Command.Effect} {s : Settings}
    (h : effect.IgnoresOrder s.formatter) : (s.writer effect).IgnoresOrder := by
  rw [writer]
  split
  · exact fun _ _ _ _ hw => ⟨rfl, hw⟩
  · exact Workspace.ignoresOrder_writer h

/-! ## Runs -/

section Runs

variable {writer : Writer Workspace} (hwriter : writer.IgnoresOrder)
include hwriter

theorem Attempt.run_alike {w w' : Workspace} (h : w.Alike w') (a : Attempt) :
    (a.run writer w).1 = (a.run writer w').1 ∧ (a.run writer w).2.Alike (a.run writer w').2 := by
  rw [run, run]
  cases a.content with
  | error f => exact ⟨rfl, h⟩
  | ok text =>
      obtain ⟨hresult, hafter⟩ := hwriter w w' a.path text h
      dsimp only
      rw [hresult]
      exact ⟨rfl, hafter⟩

theorem Attempt.runAll_alike {w w' : Workspace} (h : w.Alike w') (as : List Attempt) :
    (runAll writer w as).1 = (runAll writer w' as).1 ∧
      (runAll writer w as).2.Alike (runAll writer w' as).2 := by
  induction as generalizing w w' with
  | nil => exact ⟨rfl, h⟩
  | cons a as ih =>
      obtain ⟨houtcome, hafter⟩ := a.run_alike hwriter h
      obtain ⟨houtcomes, hend⟩ := ih hafter
      rw [runAll, runAll]
      dsimp only
      rw [houtcome, houtcomes]
      exact ⟨rfl, hend⟩

theorem run_alike {w w' : Workspace} (h : w.Alike w') (settings : Settings) (clock : Clock)
    (s : Stamper) (batch : List Loaded) :
    (run settings clock writer s w batch).1 = (run settings clock writer s w' batch).1 ∧
      (run settings clock writer s w batch).2.2.Alike
        (run settings clock writer s w' batch).2.2 := by
  rw [run, run]
  rcases attempts settings clock s batch with ⟨- | as, s'⟩
  · exact ⟨rfl, h⟩
  · obtain ⟨houtcomes, hend⟩ := Attempt.runAll_alike hwriter h as
    dsimp only
    rw [houtcomes]
    exact ⟨rfl, hend⟩

end Runs

/-- A run in workspaces that are alike has the same report and leaves them alike. -/
theorem generate_alike {effect : Command.Effect} {settings : Settings} {w w' : Workspace}
    (h : w.Alike w') (heffect : effect.IgnoresOrder settings.formatter) (clock : Clock) :
    (generate effect clock settings w).1 = (generate effect clock settings w').1 ∧
      (generate effect clock settings w).2.Alike (generate effect clock settings w').2 := by
  have hbatch : settings.batch w.files = settings.batch w'.files := by
    rw [Settings.batch, Settings.batch, Definition.loadAll_alike h.files]
  rw [generate, generate, hbatch]
  cases settings.batch w'.files with
  | error f => exact ⟨rfl, h⟩
  | ok batch =>
      have hrun := run_alike (Settings.ignoresOrder_writer heffect) h settings clock Stamper.new batch
      dsimp only
      generalize run settings clock (settings.writer effect) Stamper.new w batch = r,
        run settings clock (settings.writer effect) Stamper.new w' batch = r' at hrun
      obtain ⟨report, s₁, v⟩ := r
      obtain ⟨report', s₁', v'⟩ := r'
      obtain ⟨rfl : report = report', hend : v.Alike v'⟩ := hrun
      cases report <;> exact ⟨rfl, hend⟩

/-! ## Directories -/

/-- What loading the directory at `l`, with the path `dir`, comes to. -/
structure LoadsAll (t : Tree) (dir : Path) (l : Location) (files : List (String × ByteArray)) :
    Prop where
  /-- In the order of their names, none of them twice. -/
  sorted : files.Pairwise (·.1 < ·.1)
  /-- The definition files of the directory and nothing else. -/
  complete : ∀ name bytes, (name, bytes) ∈ files ↔ IsDefinitionFile t dir l name bytes
  /-- In whatever order the directory is listed, each file gives what comes of its path and its
      bytes. -/
  loaded : ∀ t', t.Alike t' → Definition.loadAll t' dir = .ok (files.map fun file =>
    .ofBytes (dir.join file.1) (.ok file.2))
  /-- Each file gives what it gives when it is loaded on its own. -/
  isolated : ∀ t', t.Alike t' → ∀ file ∈ files, Definition.load t' (dir.join file.1) =
    (Loaded.ofBytes (dir.join file.1) (.ok file.2)).definition

/-- **Loading is complete and blind to order.** From a directory all definition files with paths
    that can be followed are loaded, and nothing else, in the order of their names, each on its own,
    whatever the order in which the directory lists them. So runs in workspaces that differ in this
    order only have the same report and leave the same files. -/
theorem loads_all {t : Tree} {dir : Path} {l : Location} (hfind : t.find dir = .ok l)
    (hdir : t.isDirectoryAt l = true) (hnames : ∀ name ∈ t.namesAt l, IsEntryName name) :
    (∃ files, LoadsAll t dir l files) ∧
      ∀ effect clock settings printed t', t.Alike t' →
        Command.Effect.IgnoresOrder effect settings.formatter →
          (generate effect clock settings ⟨t, printed⟩).1 =
              (generate effect clock settings ⟨t', printed⟩).1 ∧
            (generate effect clock settings ⟨t, printed⟩).2.Alike
              (generate effect clock settings ⟨t', printed⟩).2 := by
  refine ⟨⟨Definition.filesIn t dir l, ?_⟩, ?_⟩
  · have hloaded := Definition.loadAll_eq hfind hdir hnames
    refine ⟨Definition.pairwise_filesIn t dir l, fun name bytes => Definition.mem_filesIn hnames,
      fun t' h => ?_, fun t' h file hfile => ?_⟩
    · rw [← Definition.loadAll_alike h, hloaded]
    · rw [Definition.load, ← h.read]
      have hentry := (Definition.mem_filesIn hnames).mp hfile
      rw [hentry.read hnames hfind hdir]
  · intro effect clock settings printed t' h heffect
    have hw : Workspace.Alike ⟨t, printed⟩ ⟨t', printed⟩ := ⟨h, rfl⟩
    exact generate_alike hw heffect clock

/-- The tree with its entries in the opposite order. -/
def Files.Tree.reversed (t : Tree) : Tree where
  entries := t.entries.reverse
  distinct := by
    rw [List.map_reverse]
    exact List.nodup_reverse.mpr t.distinct
  current := t.current

theorem Files.Tree.alike_reversed (t : Tree) : t.Alike t.reversed :=
  .of_perm (List.reverse_perm t.entries).symm rfl

/-- A tree with two definition files, one of them broken, and two other files next to them. -/
def shelfTree : Tree where
  entries := [(["here"], .directory), (["m", "here"], .directory),
    (["b.json", "m", "here"], .file "\x7b".toUTF8), ([".json", "m", "here"], .file "".toUTF8),
    (["a.b.json", "m", "here"], .file "[\"a\",\"sql\",\x7b\x7d]".toUTF8),
    (["c.JSON", "m", "here"], .file "".toUTF8)]
  distinct := by decide
  current := ["here"]

theorem entryNames_shelfTree : ∀ name ∈ shelfTree.namesAt ["m", "here"], IsEntryName name := by
  have hlist : shelfTree.namesAt ["m", "here"] = ["b.json", ".json", "a.b.json", "c.JSON"] := by
    rfl
  rw [hlist]
  simp only [List.forall_mem_cons]
  refine ⟨?_, ?_, ?_, ?_, nofun⟩
  iterate 4 exact ⟨⟨by decide, by decide, by decide, by decide⟩, by decide, by decide⟩

theorem loads_all_sample :
    (∃ files, LoadsAll shelfTree ⟨"m/"⟩ ["m", "here"] files) ∧
      (generate Toolbox.effect frozenClock
          { nearSettings with modelsDir := ⟨"m/"⟩, formatCommand := some "touch" }
          ⟨shelfTree, ""⟩).1 =
        (generate Toolbox.effect frozenClock
          { nearSettings with modelsDir := ⟨"m/"⟩, formatCommand := some "touch" }
          ⟨shelfTree.reversed, ""⟩).1 := by
  have h := @loads_all shelfTree ⟨"m/"⟩ ["m", "here"] (by rfl) (by rfl) entryNames_shelfTree
  have hlisting := h.2 Toolbox.effect frozenClock
    { nearSettings with modelsDir := ⟨"m/"⟩, formatCommand := some "touch" } "" shelfTree.reversed
    shelfTree.alike_reversed (Toolbox.ignoresOrder_effect _)
  exact ⟨h.1, hlisting.1⟩

/-! ## Paths that are too long -/

/-- The path of the directory with so many slashes behind it. -/
def slashedPath (n : Nat) : Path := ⟨"m" ++ String.ofList (List.replicate n '/')⟩

theorem utf8ByteSize_slashedPath (n : Nat) : (slashedPath n).text.utf8ByteSize = n + 1 := by
  have hslashes : (String.ofList (List.replicate n '/')).utf8ByteSize = n := by
    induction n with
    | zero => rfl
    | succ n ih =>
        have hcons : String.ofList (List.replicate (n + 1) '/') =
            "/" ++ String.ofList (List.replicate n '/') := by
          rw [List.replicate_succ, ← List.singleton_append, String.ofList_append]
        rw [hcons, String.utf8ByteSize_append, ih, Nat.add_comm]
        rfl
  rw [slashedPath, String.utf8ByteSize_append, hslashes, Nat.add_comm]
  rfl

theorem splitAt_slashes (n : Nat) :
    Text.splitAt '/' (List.replicate n '/') = List.replicate (n + 1) [] := by
  induction n with
  | zero => rfl
  | succ n ih =>
      rw [List.replicate_succ, Text.splitAt, if_pos rfl, ih]
      rfl

/-- Slashes at the end lead nowhere else. -/
theorem find_slashedPath {n : Nat} (h : n + 1 < Tree.pathLimit) :
    shelfTree.find (slashedPath n) = .ok ["m", "here"] := by
  have hlist : (slashedPath n).text.toList = ['m'] ++ List.replicate n '/' := by
    simp only [slashedPath, String.toList_append, String.toList_ofList]
    rfl
  have hpieces : (slashedPath n).pieces.filter (!·.isEmpty) = ["m"] := by
    have hsplit := Text.splitAt_append_of_notMem (by decide : '/' ∉ ['m']) (splitAt_slashes n)
    rw [Path.pieces, hlist, hsplit, List.map_cons, List.map_replicate,
      List.filter_cons_of_pos (by decide), List.filter_replicate]
    rfl
  have hnul : ¬ (slashedPath n).text.toList.contains '\x00' = true := by
    rw [List.contains_iff_mem, hlist]
    simp
  have hempty : ¬ (slashedPath n).text.isEmpty = true := by
    simp [slashedPath]
  have hshort : ¬ Tree.pathLimit ≤ (slashedPath n).text.utf8ByteSize := by
    rw [utf8ByteSize_slashedPath]
    exact Nat.not_le.mpr h
  have hrelative : (slashedPath n).isAbsolute = false := by
    rw [Path.isAbsolute, hlist]
    rfl
  have hstart : shelfTree.start (slashedPath n) = .ok (["here"], ["m"]) := by
    rw [Tree.start, if_neg hnul, if_neg hempty, if_neg hshort, hpieces, hrelative]
    rfl
  refine Tree.find_eq_ok_iff.mpr ⟨_, _, hstart, rfl, ?_⟩
  exact Bool.and_false _

/-- A file is left out when its path is too long to be followed, though it has the extension and its
    directory can be listed. -/
theorem not_always_loaded :
    ∃ t dir l name bytes, t.find dir = .ok l ∧ t.isDirectoryAt l = true ∧
      (∀ name ∈ t.namesAt l, IsEntryName name) ∧ t.node? (name :: l) = some (.file bytes) ∧
      (∃ stem, stem ≠ "" ∧ name = stem ++ "." ++ Loaded.extension) ∧
      Definition.loadAll t dir = .ok [] := by
  have hfind : shelfTree.find (slashedPath 4090) = .ok ["m", "here"] := find_slashedPath (by decide)
  refine ⟨shelfTree, slashedPath 4090, ["m", "here"], "b.json", "\x7b".toUTF8, hfind, by rfl,
    entryNames_shelfTree, by rfl, ⟨"b", by decide, by decide⟩, ?_⟩
  have hfiles : Definition.filesIn shelfTree (slashedPath 4090) ["m", "here"] = [] := by
    rw [List.eq_nil_iff_forall_not_mem]
    rintro ⟨name, bytes⟩ hmem
    have hentry := (Definition.mem_filesIn entryNames_shelfTree).mp hmem
    obtain ⟨stem, hstem, rfl⟩ := hentry.extension
    -- the path of the directory with the extension and one more character is too long already
    have hlong := Path.utf8ByteSize_le_join (slashedPath 4090)
      (entryNames_shelfTree _ hentry.mem_namesAt).toIsName
    have hshort := hentry.short
    have hpos : stem.utf8ByteSize ≠ 0 := fun hzero => hstem (String.utf8ByteSize_eq_zero_iff.mp hzero)
    have hlimit : Tree.pathLimit = 4096 := rfl
    have hextension : ".".utf8ByteSize + Loaded.extension.utf8ByteSize = 5 := rfl
    rw [utf8ByteSize_slashedPath, String.utf8ByteSize_append, String.utf8ByteSize_append] at hlong
    omega
  rw [Definition.loadAll_eq hfind (by rfl) entryNames_shelfTree, hfiles]
  rfl

end Scaffold
