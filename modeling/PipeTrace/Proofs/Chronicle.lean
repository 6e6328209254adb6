import PipeTrace.Loader

/-!
# The chronicle of a log

What a log says, told with exact integers and without a trace that is filled in:

* `Chronicle.next`      the running cycle counter after a line;
* `Chronicle.mark?`     what a line says of an instruction (`Mark`), if it is accepted and says
                        something;
* `Chronicle.refusal?`  why a line is skipped, if it is;

and the same for the lines of a whole log (`counterFrom`, `marksFrom`, `refusalsFrom`).  A loader
that replays lines follows their chronicle: `Loader.step_eq` says so of one line, and the lemmas on
`Loader.feedAll` of the counter, the records, the warnings and the number of lines.
-/

set_option autoImplicit false

namespace PipeTrace

/-- what an accepted line says of an instruction -/
inductive Mark where
  | introduced (id : InstrId)
  | labelled (id : InstrId) (text : String)
  | entered (id : InstrId) (stage : String) (cycle : Int)
deriving DecidableEq, Repr

namespace Mark

def id : Mark → InstrId
  | .introduced id => id
  | .labelled id _ => id
  | .entered id _ _ => id

def label? : Mark → Option String
  | .labelled _ text => some text
  | _ => none

def entry? : Mark → Option (String × Int)
  | .entered _ stage cycle => some (stage, cycle)
  | _ => none

def update : Mark → Record → Record
  | .introduced _, r => r
  | .labelled _ text, r => r.relabel text
  | .entered _ stage cycle, r => r.enter stage (Int64.ofInt cycle)

theorem id_update (m : Mark) (r : Record) : (m.update r).id = r.id := by
  cases m with
  | introduced _ => rfl
  | labelled _ _ => rfl
  | entered _ stage cycle => exact r.id_enter stage _

/-! ### marks that are changed, but not their instructions -/

section
variable {f : Mark → Mark} (hf : ∀ m, (f m).id = m.id)
include hf

theorem map_id_map_of_id_eq (ms : List Mark) : (ms.map f).map id = ms.map id := by
  rw [List.map_map]
  exact List.map_congr_left fun m _ => hf m

theorem filter_map_of_id_eq (ms : List Mark) (id : InstrId) :
    (ms.map f).filter (·.id = id) = (ms.filter (·.id = id)).map f := by
  rw [List.filter_map]
  congr 2
  funext m
  show decide ((f m).id = id) = decide (m.id = id)
  rw [hf]

end

end Mark

namespace Chronicle

/-! ## one line -/

/-- the counter after a line; an advance that leaves the range of cycles is not made -/
def next (n : Int) (line : String) : Int :=
  match Event.parse line with
  | .ok (some (.setCycle value)) => value.toInt
  | .ok (some (.advance delta)) =>
    if Word.Fits (n + delta.toInt) then n + delta.toInt else n
  | _ => n

/-- what a line says of an instruction; an entry outside the range of cycles says nothing -/
def mark? (n : Int) (line : String) : Option Mark :=
  match Event.parse line with
  | .ok (some (.introduce id)) => some (.introduced id)
  | .ok (some (.label id text)) => some (.labelled id text)
  | .ok (some (.enter id relative stage)) =>
    if Word.Fits (n + relative.toInt) then some (.entered id stage (n + relative.toInt)) else none
  | _ => none

/-- why a line is skipped -/
def refusal? (n : Int) (line : String) : Option LineError :=
  match Event.parse line with
  | .error error => some error
  | .ok (some (.advance delta)) =>
    if Word.Fits (n + delta.toInt) then none else some (.cycleOverflow (Int64.ofInt n) delta)
  | .ok (some (.enter _ relative _)) =>
    if Word.Fits (n + relative.toInt) then none else some (.cycleOverflow (Int64.ofInt n) relative)
  | _ => none

/-! ## the lines of a log -/

def counterFrom (n : Int) (lines : List String) : Int := lines.foldl next n

def marksFrom (n : Int) : List String → List Mark
  | [] => []
  | line :: rest => (mark? n line).toList ++ marksFrom (next n line) rest

/-- the lines that are skipped, `k` lines being before them -/
def refusalsFrom (n : Int) (k : Nat) : List String → List Warning
  | [] => []
  | line :: rest =>
    (refusal? n line).toList.map (fun error => { line := k + 1, text := line, error }) ++
      refusalsFrom (next n line) (k + 1) rest

def counter (lines : List String) : Int := counterFrom 0 lines

/-- what a log says of instructions, in the order of its lines -/
def marks (lines : List String) : List Mark := marksFrom 0 lines

theorem counterFrom_cons (n : Int) (line : String) (rest : List String) :
    counterFrom n (line :: rest) = counterFrom (next n line) rest := rfl

theorem counterFrom_append (n : Int) (as bs : List String) :
    counterFrom n (as ++ bs) = counterFrom (counterFrom n as) bs := List.foldl_append

theorem marksFrom_append (n : Int) (as bs : List String) :
    marksFrom n (as ++ bs) = marksFrom n as ++ marksFrom (counterFrom n as) bs := by
  induction as generalizing n with
  | nil => rfl
  | cons line as ih =>
    rw [List.cons_append, marksFrom, ih, marksFrom, List.append_assoc, counterFrom_cons]

theorem refusalsFrom_append (n : Int) (k : Nat) (as bs : List String) :
    refusalsFrom n k (as ++ bs) =
      refusalsFrom n k as ++ refusalsFrom (counterFrom n as) (k + as.length) bs := by
  induction as generalizing n k with
  | nil => rfl
  | cons line as ih =>
    rw [List.cons_append, refusalsFrom, ih, refusalsFrom, List.append_assoc, counterFrom_cons,
      List.length_cons, Nat.add_assoc, Nat.add_comm 1]

/-- a warning says which line is skipped, by its number and its text, and why -/
theorem mem_refusalsFrom_iff {n : Int} {k : Nat} {lines : List String} {w : Warning} :
    w ∈ refusalsFrom n k lines ↔ ∃ i, w.line = k + i + 1 ∧ lines[i]? = some w.text ∧
      refusal? (counterFrom n (lines.take i)) w.text = some w.error := by
  induction lines generalizing n k with
  | nil => simp [refusalsFrom]
  | cons line rest ih =>
    rw [refusalsFrom, List.mem_append, List.mem_map, ih]
    constructor
    · rintro (⟨error, herror, rfl⟩ | ⟨i, hline, htext, hrefusal⟩)
      · exact ⟨0, rfl, rfl, Option.mem_toList.mp herror⟩
      · exact ⟨i + 1, by omega, htext, hrefusal⟩
    · rintro ⟨i, hline, htext, hrefusal⟩
      obtain ⟨number, text, error⟩ := w
      cases i with
      | zero =>
        obtain rfl : line = text := Option.some_inj.mp htext
        obtain rfl : number = k + 1 := hline
        exact Or.inl ⟨error, Option.mem_toList.mpr hrefusal, rfl⟩
      | succ i =>
        refine Or.inr ⟨i, ?_, htext, hrefusal⟩
        show number = k + 1 + i + 1
        have hnumber : number = k + (i + 1) + 1 := hline
        omega

theorem line_of_mem_refusalsFrom {n : Int} {k : Nat} {lines : List String} {w : Warning}
    (h : w ∈ refusalsFrom n k lines) : k < w.line ∧ w.line ≤ k + lines.length := by
  obtain ⟨i, hline, htext, -⟩ := mem_refusalsFrom_iff.mp h
  obtain ⟨hi, -⟩ := List.getElem?_eq_some_iff.mp htext
  omega

theorem fits_next {n : Int} (h : Word.Fits n) (line : String) : Word.Fits (next n line) := by
  unfold next
  split
  · exact Word.fits_toInt _
  · split
    · assumption
    · exact h
  · exact h

theorem refusal?_of_advance {n : Int} {line : String} {delta : Cycle}
    (hparse : Event.parse line = .ok (some (.advance delta)))
    (hout : ¬ Word.Fits (n + delta.toInt)) :
    refusal? n line = some (.cycleOverflow (Int64.ofInt n) delta) := by
  unfold refusal?
  rw [hparse]
  exact if_neg hout

theorem refusal?_of_enter {n : Int} {line : String} {id : InstrId} {relative : Cycle}
    {stage : String} (hparse : Event.parse line = .ok (some (.enter id relative stage)))
    (hout : ¬ Word.Fits (n + relative.toInt)) :
    refusal? n line = some (.cycleOverflow (Int64.ofInt n) relative) := by
  unfold refusal?
  rw [hparse]
  exact if_neg hout

/-- a line that is skipped neither moves the counter nor says anything of an instruction -/
theorem next_and_mark?_of_refusal? {n : Int} {line : String} {error : LineError}
    (h : refusal? n line = some error) : next n line = n ∧ mark? n line = none := by
  unfold refusal? at h
  unfold next mark?
  split at h
  · rename_i hp
    rw [hp]
    exact ⟨rfl, rfl⟩
  · rename_i hp
    rw [hp]
    split at h
    · cases h
    · rename_i hfit
      exact ⟨if_neg hfit, rfl⟩
  · rename_i hp
    rw [hp]
    split at h
    · cases h
    · rename_i hfit
      exact ⟨rfl, if_neg hfit⟩
  · cases h

/-! ## where marks come from -/

theorem parse_of_mark?_labelled {n : Int} {line : String} {id : InstrId} {text : String}
    (h : mark? n line = some (.labelled id text)) :
    Event.parse line = .ok (some (.label id text)) := by
  unfold mark? at h
  split at h
  · cases h
  · cases h
    assumption
  · split at h <;> cases h
  · cases h

theorem parse_of_mark?_entered {n : Int} {line : String} {id : InstrId} {stage : String}
    {cycle : Int} (h : mark? n line = some (.entered id stage cycle)) :
    ∃ relative, Event.parse line = .ok (some (.enter id relative stage)) := by
  unfold mark? at h
  split at h
  · cases h
  · cases h
  · rename_i hp
    split at h
    · cases h
      exact ⟨_, hp⟩
    · cases h
  · cases h

theorem exists_line_of_mem_marksFrom {n : Int} {lines : List String} {m : Mark}
    (h : m ∈ marksFrom n lines) : ∃ line ∈ lines, ∃ k, mark? k line = some m := by
  induction lines generalizing n with
  | nil => cases h
  | cons line rest ih =>
    rcases List.mem_append.mp h with hm | hm
    · exact ⟨line, List.mem_cons_self, n, Option.mem_toList.mp hm⟩
    · obtain ⟨line', hline', hmark⟩ := ih hm
      exact ⟨line', List.mem_cons_of_mem _ hline', hmark⟩

/-- the cycles of all entries are in range -/
theorem fits_of_mem_marksFrom {n : Int} {lines : List String} {id : InstrId} {stage : String}
    {cycle : Int} (h : .entered id stage cycle ∈ marksFrom n lines) : Word.Fits cycle := by
  obtain ⟨line, -, k, hmark⟩ := exists_line_of_mem_marksFrom h
  unfold mark? at hmark
  split at hmark
  · cases hmark
  · cases hmark
  · split at hmark
    · cases hmark
      assumption
    · cases hmark
  · cases hmark

end Chronicle
end PipeTrace
