import Mathlib.Data.List.Basic
import PipeTrace.Proofs.Scan

/-!
# Arguments that spell options

A command line is made of groups of arguments, each of which says one thing.

* `Group`               one option with its value, one switch, or one file;
* `Group.use?`          the use of an option that a group writes;
* `said`                what groups say, all together;
* `Arranges`            groups that say a given configuration, in any order.

Of the parser only its rules are known (`Parser.Laws`).  They say what an option in front does to
arguments that are understood, and that an option may pass files.  So the groups are read from the
last one on, and the files that stand before a group wait in front of it: the induction is on the
groups, for any files before them.
-/

set_option autoImplicit false

namespace PipeTrace.CommandLine

/-! ## groups of arguments -/

/-- arguments that belong together and say one thing -/
inductive Group where
  /-- `--stages=value` -/
  | attachedStages (value : String)
  /-- `-s value` -/
  | separateStages (value : String)
  | color (choice : ColorChoice)
  | metrics
  | verbose
  | file (name : String)
deriving DecidableEq, Repr

namespace Group

def args : Group → List String
  | attachedStages value => ["--stages=" ++ value]
  | separateStages value => ["-s", value]
  | color choice => ["--color", choice.name]
  | metrics => ["--metrics"]
  | verbose => ["-v"]
  | file name => [name]

/-- an argument that has to be taken as it stands does not look like an option -/
def Plain : Group → Prop
  | separateStages value => IsValue value
  | file name => IsValue name
  | attachedStages _ | color _ | metrics | verbose => True

/-- the use of an option that a group writes, if it is no file -/
def use? : Group → Option Use
  | attachedStages value | separateStages value => some (.value .stages value)
  | color choice => some (.value .color choice.name)
  | metrics => some (.switch .metrics)
  | verbose => some (.switch .verbose)
  | file _ => none

def stages? : Group → Option String
  | attachedStages value | separateStages value => some value
  | color _ | metrics | verbose | file _ => none

def color? : Group → Option ColorChoice
  | color choice => some choice
  | attachedStages _ | separateStages _ | metrics | verbose | file _ => none

def file? : Group → Option String
  | file name => some name
  | attachedStages _ | separateStages _ | color _ | metrics | verbose => none

theorem writes {g : Group} {use : Use} (hplain : g.Plain) (huse : g.use? = some use) :
    use.Writes g.args := by
  cases g with
  | attachedStages value =>
    cases huse
    exact @Use.Writes.attached .stages "stages" value rfl
  | separateStages value =>
    cases huse
    exact .separate (by decide) hplain
  | color choice =>
    cases huse
    exact .separate (by decide) (by cases choice <;> decide)
  | metrics | verbose =>
    cases huse
    exact .switch (by decide)
  | file name => cases huse

end Group

/-- what groups say, all together, with the files to which they belong -/
def said (files : Names) (gs : List Group) : Matches where
  files := files
  stages := gs.filterMap Group.stages?
  color := (gs.filterMap Group.color?).head?
  metrics := gs.contains .metrics
  verbose := gs.contains .verbose

/-! ## groups that can be read -/

theorem Group.contains_of_count {gs : List Group} {g : Group} {on : Bool}
    (h : gs.count g = on.toNat) : gs.contains g = on := by
  cases on with
  | false =>
    rw [List.contains_eq_mem, decide_eq_false_iff_not]
    exact List.count_eq_zero.mp h
  | true =>
    rw [List.contains_eq_mem, decide_eq_true_eq]
    exact List.count_pos_iff.mp (h ▸ Nat.one_pos)

/-- groups that can be read together: no option but the stages is given twice -/
structure Orderly (gs : List Group) : Prop where
  plain : ∀ g ∈ gs, g.Plain
  named : ∀ name ∈ gs.filterMap Group.file?, name ≠ ""
  color : (gs.filterMap Group.color?).length ≤ 1
  metrics : gs.count .metrics ≤ 1
  verbose : gs.count .verbose ≤ 1

namespace Orderly

variable {gs : List Group} {g : Group} {files : Names} {use : Use}

theorem tail (h : Orderly (g :: gs)) : Orderly gs := by
  have hsub : gs.Sublist (g :: gs) := List.sublist_cons_self g gs
  exact ⟨fun g' hg' => h.plain g' (hsub.subset hg'),
    fun name hname => h.named name ((hsub.filterMap _).subset hname),
    Nat.le_trans (hsub.filterMap _).length_le h.color,
    Nat.le_trans (hsub.count_le _) h.metrics, Nat.le_trans (hsub.count_le _) h.verbose⟩

/-- a group that stands once in all does not stand after its first place -/
theorem contains_eq_false_of_count (h : (g :: gs).count g ≤ 1) : gs.contains g = false := by
  rw [List.count_cons_self] at h
  exact Group.contains_of_count (Nat.le_zero.mp (Nat.le_of_succ_le_succ h))

theorem colors_eq_nil {choice : ColorChoice} (h : Orderly (.color choice :: gs)) :
    gs.filterMap Group.color? = [] := by
  have hself : (Group.color choice).color? = some choice := rfl
  have hcolor := h.color
  rw [List.filterMap_cons_some hself] at hcolor
  exact List.length_eq_zero_iff.mp (Nat.le_zero.mp (Nat.le_of_succ_le_succ hcolor))

theorem admits (h : Orderly (g :: gs)) (huse : g.use? = some use) :
    (said files gs).Admits use := by
  cases g with
  | attachedStages | separateStages =>
    cases huse
    exact ⟨rfl, .inl rfl⟩
  | color choice =>
    cases huse
    have hallows : Param.allows .color choice.name = true := by
      cases choice <;> decide
    refine ⟨hallows, .inr ?_⟩
    show ((gs.filterMap Group.color?).head?).isSome = false
    rw [h.colors_eq_nil]
    rfl
  | metrics =>
    cases huse
    exact congrArg not (contains_eq_false_of_count h.metrics)
  | verbose =>
    cases huse
    exact congrArg not (contains_eq_false_of_count h.verbose)
  | file name => cases huse

end Orderly

theorem said_cons {files : Names} {gs : List Group} {g : Group} {use : Use}
    (huse : g.use? = some use) : said files (g :: gs) = (said files gs).add use := by
  unfold said
  cases g with
  | attachedStages value | separateStages value | metrics | verbose =>
    cases huse
    simp [Matches.add, Group.stages?, Group.color?, List.filterMap_cons]
  | color choice =>
    cases huse
    simp [Matches.add, Group.stages?, Group.color?, List.filterMap_cons,
      ColorChoice.ofName?_name]
  | file name => cases huse

/-! ## reading groups -/

section
variable {parser : Parser} (laws : Parser.Laws parser)
include laws

theorem Parser.Laws.writes {use : Use} {args rest : List String} {m : Matches}
    (h : use.Writes args) (hrest : parser rest = .ok m) (hadmits : m.Admits use) :
    parser (args ++ rest) = .ok (m.add use) := by
  cases h with
  | attached hname => exact laws.attached _ _ _ rest m hname hrest hadmits
  | separate hoption htext => exact laws.separate _ _ _ rest m hoption htext hrest hadmits
  | switch hoption => exact laws.switch _ _ rest m hoption hrest hadmits

/-- **Groups are read as what they say**, once the files among them are read on their own. -/
theorem parser_groups {n : Names} {tail : List String} {gs : List Group} (h : Orderly gs)
    {files : List String} (hfiles : ∀ f ∈ files, IsValue f ∧ f ≠ "")
    (hread : parser (files ++ gs.filterMap Group.file? ++ tail) = .ok { files := n }) :
    parser (files ++ gs.flatMap Group.args ++ tail) = .ok (said n gs) := by
  induction gs generalizing files with
  | nil => exact hread
  | cons g gs ih =>
    rw [List.flatMap_cons]
    cases huse : g.use? with
    | some use =>
      have hno : g.file? = none := by
        cases g <;> first | rfl | cases huse
      rw [List.filterMap_cons_none hno] at hread
      have hrest := ih h.tail hfiles hread
      have hadmits : (said n gs).Admits use := h.admits huse
      have hwrites := Group.writes (h.plain g List.mem_cons_self) huse
      rw [List.append_assoc] at hrest
      calc parser (files ++ (g.args ++ gs.flatMap Group.args) ++ tail)
          = parser (files ++ g.args ++ (gs.flatMap Group.args ++ tail)) := by
            simp only [List.append_assoc]
        _ = parser (g.args ++ (files ++ (gs.flatMap Group.args ++ tail))) := by
            rw [laws.mixed use g.args files _ _ hwrites hfiles hrest hadmits, List.append_assoc]
        _ = .ok ((said n gs).add use) := laws.writes hwrites hrest hadmits
        _ = .ok (said n (g :: gs)) := by rw [said_cons huse]
    | none =>
      obtain ⟨name, rfl⟩ : ∃ name, g = .file name := by
        cases g <;> first | exact ⟨_, rfl⟩ | cases huse
      -- the file joins those that wait in front of the groups
      have hself : (Group.file name).file? = some name := rfl
      rw [List.filterMap_cons_some hself, List.append_cons] at hread
      have hname : name ≠ "" := h.named name (by simp [Group.file?])
      have hfiles' : ∀ f ∈ files ++ [name], IsValue f ∧ f ≠ "" := by
        rw [List.forall_mem_append]
        exact ⟨hfiles, List.forall_mem_singleton.mpr
          ⟨h.plain _ List.mem_cons_self, hname⟩⟩
      have hrest := ih h.tail hfiles' hread
      rw [List.append_assoc files [name]] at hrest
      exact hrest

end

/-! ## arrangements -/

/-- the groups say this and nothing else: the values of stages and the files in this order, the
colour if one is chosen, and each switch once if it is on -/
structure Arranges (gs : List Group) (stages : List String) (color : Option ColorChoice)
    (metrics verbose : Bool) (files : List String) : Prop where
  plain : ∀ g ∈ gs, g.Plain
  stages : gs.filterMap Group.stages? = stages
  color : gs.filterMap Group.color? = color.toList
  metrics : gs.count .metrics = metrics.toNat
  verbose : gs.count .verbose = verbose.toNat
  files : gs.filterMap Group.file? = files

namespace Arranges

variable {gs : List Group} {stages files : List String} {color : Option ColorChoice}
  {metrics verbose : Bool}

theorem orderly (h : Arranges gs stages color metrics verbose files)
    (hnamed : ∀ name ∈ files, name ≠ "") : Orderly gs where
  plain := h.plain
  named := by rwa [h.files]
  color := by
    rw [h.color]
    exact Option.length_toList_le
  metrics := by
    rw [h.metrics]
    exact Bool.toNat_le metrics
  verbose := by
    rw [h.verbose]
    exact Bool.toNat_le verbose

theorem said_eq (h : Arranges gs stages color metrics verbose files) (n : Names) :
    said n gs = { files := n, stages, color, metrics, verbose } := by
  unfold said
  rw [h.stages, h.color, Group.contains_of_count h.metrics, Group.contains_of_count h.verbose]
  cases color <;> rfl

/-- files stand for themselves -/
theorem isValue_of_mem_files (h : Arranges gs stages color metrics verbose files) {name : String}
    (hname : name ∈ files) : IsValue name := by
  rw [← h.files, List.mem_filterMap] at hname
  obtain ⟨g, hg, hfile⟩ := hname
  cases g with
  | file name' =>
    cases hfile
    exact h.plain _ hg
  | attachedStages | separateStages | color | metrics | verbose => cases hfile

/-- the groups that say this in one order, without files -/
def written (stages : List String) (color : Option ColorChoice) (metrics verbose : Bool) :
    List Group :=
  stages.map .attachedStages ++ color.toList.map .color ++
    List.replicate metrics.toNat .metrics ++ List.replicate verbose.toNat .verbose

theorem count_values {g : Group} (hstages : g.stages? = none) (hcolor : g.color? = none) :
    (stages.map Group.attachedStages ++ color.toList.map Group.color).count g = 0 := by
  rw [List.count_eq_zero, List.mem_append, List.mem_map, List.mem_map]
  rintro (⟨value, -, rfl⟩ | ⟨choice, -, rfl⟩)
  · cases hstages
  · cases hcolor

theorem arranges_written (stages : List String) (color : Option ColorChoice)
    (metrics verbose : Bool) :
    Arranges (written stages color metrics verbose) stages color metrics verbose [] where
  plain := by simp [written, Group.Plain, or_imp, forall_and]
  stages := by
    have hself : Group.stages? ∘ Group.attachedStages = some := rfl
    have hnone : Group.stages? ∘ Group.color = fun _ => none := rfl
    simp [written, Group.stages?, List.filterMap_replicate, hself, hnone]
  color := by
    have hself : Group.color? ∘ Group.color = some := rfl
    have hnone : Group.color? ∘ Group.attachedStages = fun _ => none := rfl
    simp [written, Group.color?, List.filterMap_replicate, hself, hnone]
  metrics := by
    unfold written
    rw [List.count_append, List.count_append, count_values rfl rfl, List.count_replicate_self,
      List.count_replicate, if_neg (by decide), Nat.zero_add, Nat.add_zero]
  verbose := by
    unfold written
    rw [List.count_append, List.count_append, count_values rfl rfl, List.count_replicate_self,
      List.count_replicate, if_neg (by decide), Nat.zero_add]
  files := by simp [written, Group.file?, List.filterMap_replicate]

end Arranges

/-- **Every configuration can be written on the command line and is read back**, by every parser
that follows the rules.  The groups of arguments may stand in any order in which the files and the
values of stages keep theirs, and after two dashes the files may look like options. -/
theorem parse_arranged {parser : Parser} (laws : Parser.Laws parser) (stages : List String)
    (color : Option ColorChoice) (metrics verbose : Bool) {a b : String} (ha : a ≠ "")
    (hb : b ≠ "") :
    let o : Options :=
      { files := ⟨a, b⟩, stages, color := color.getD .auto, metrics, verbose }
    (∀ gs, Arranges gs stages color metrics verbose [a, b] →
      parseWith parser (gs.flatMap Group.args) = .ok o) ∧
    (∀ gs, Arranges gs stages color metrics verbose [] →
      parseWith parser (gs.flatMap Group.args ++ ["--", a, b]) = .ok o) ∧
    o.stageSet = (StageSet.ofArgs? stages).elim (.error .noStages) .ok ∧
    ∃ gs, Arranges gs stages color metrics verbose [] := by
  intro o
  refine ⟨fun gs h => ?_, fun gs h => ?_, ?_,
    ⟨_, Arranges.arranges_written stages color metrics verbose⟩⟩
  · have hvalue_a : IsValue a := h.isValue_of_mem_files List.mem_cons_self
    have hvalue_b : IsValue b := h.isValue_of_mem_files (List.mem_cons_of_mem a List.mem_cons_self)
    have hfiles : parser ([] ++ gs.filterMap Group.file? ++ []) = .ok { files := ⟨a, b⟩ } := by
      rw [h.files]
      exact laws.files a b hvalue_a hvalue_b ha hb
    have hgroups := parser_groups laws (h.orderly (by simp [ha, hb])) (by simp) hfiles
    rw [List.nil_append, List.append_nil, h.said_eq] at hgroups
    unfold parseWith
    rw [hgroups]
    rfl
  · have hfiles : parser ([] ++ gs.filterMap Group.file? ++ ["--", a, b]) =
        .ok { files := ⟨a, b⟩ } := by
      rw [h.files]
      exact laws.escape a b ha hb
    have hgroups := parser_groups laws (h.orderly (by simp)) (by simp) hfiles
    rw [List.nil_append, h.said_eq] at hgroups
    unfold parseWith
    rw [hgroups]
    rfl
  · unfold Options.stageSet
    cases StageSet.ofArgs? o.stages <;> rfl

/-- options around and between the files, with values that are empty or hold what parts arguments;
and files that look like options -/
theorem parse_arranged_mixed :
    let gs : List Group := [.separateStages "", .file "a=b", .color .never,
      .attachedStages "-x,=", .verbose, .file "IF"]
    Parser.Laws Scan.parser ∧
    Arranges gs ["", "-x,="] (some .never) false true ["a=b", "IF"] ∧
    gs.flatMap Group.args =
      ["-s", "", "a=b", "--color", "never", "--stages=-x,=", "-v", "IF"] ∧
    parse (gs.flatMap Group.args) = .ok
      { files := ⟨"a=b", "IF"⟩, stages := ["", "-x,="], color := .never, verbose := true } ∧
    parse ["--metrics", "--", "-v", "--"] = .ok { files := ⟨"-v", "--"⟩, metrics := true } := by
  intro gs
  have hgs : Arranges gs ["", "-x,="] (some .never) false true ["a=b", "IF"] := by
    refine ⟨?_, by decide, by decide, by decide, by decide, by decide⟩
    simp [gs, Group.Plain, IsValue]
  have hmetrics : Arranges [.metrics] [] none true false [] := by
    refine ⟨?_, by decide, by decide, by decide, by decide, by decide⟩
    simp [Group.Plain]
  exact ⟨Scan.parser_laws, hgs, by decide +kernel,
    (parse_arranged Scan.parser_laws _ _ _ _ (by decide) (by decide)).1 gs hgs,
    (parse_arranged Scan.parser_laws [] none true false (by decide) (by decide)).2.1
      [.metrics] hmetrics⟩

end PipeTrace.CommandLine
