import PipeTrace.Proofs.Counters

/-!
# Keys that can be read back

The text of a key is its name and, between braces, its labels with commas between them.  If it is
known where the name, each label and each value end (`Key.Separable`), the key can be read back: the
name ends before the first brace, the labels are the pieces between commas (`Key.labels_eq`), and in
each of them the value follows the first equals sign (`Key.ofPiece_labelText`).  So such keys have
different texts if they are different (`Key.text_inj`).
-/

set_option autoImplicit false

namespace PipeTrace.Metrics.Key

/-- the characters that end a part of a key do not stand in that part -/
structure Separable (key : Key) : Prop where
  name : '\x7b' ∉ key.name.toList
  label : ∀ l ∈ key.labels, '=' ∉ l.1.toList ∧ ',' ∉ l.1.toList
  value : ∀ l ∈ key.labels, ',' ∉ l.2.toList

def labelText (l : String × String) : List Char := l.1.toList ++ '=' :: l.2.toList

/-- the label and the value that a piece between commas spells -/
def ofPiece (piece : List Char) : String × String :=
  (String.ofList (piece.takeWhile (· ≠ '=')), String.ofList (piece.dropWhile (· ≠ '=')).tail)

theorem ofPiece_labelText {l : String × String} (h : '=' ∉ l.1.toList) :
    ofPiece (labelText l) = l := by
  have hlabel : ∀ c ∈ l.1.toList, decide (c ≠ '=') = true := by
    intro c hc
    exact decide_eq_true fun heq => h (heq ▸ hc)
  unfold ofPiece labelText
  rw [List.takeWhile_append_of_pos hlabel, List.dropWhile_append_of_pos hlabel,
    List.takeWhile_cons_of_neg (by simp), List.dropWhile_cons_of_neg (by simp), List.append_nil,
    List.tail_cons, String.ofList_toList, String.ofList_toList]

theorem text_of_labels {key : Key} (h : key.labels ≠ []) :
    key.text = key.name ++ "\x7b" ++
      ",".intercalate (key.labels.map fun l => l.1 ++ "=" ++ l.2) ++ "\x7d" :=
  if_neg h

theorem toList_text {key : Key} (h : key.labels ≠ []) :
    key.text.toList =
      key.name.toList ++ '\x7b' :: ([','].intercalate (key.labels.map labelText) ++ ['\x7d']) := by
  have hlabels : (key.labels.map fun l => l.1 ++ "=" ++ l.2).map String.toList =
      key.labels.map labelText := by
    rw [List.map_map]
    refine List.map_congr_left fun l _ => ?_
    show (l.1 ++ "=" ++ l.2).toList = _
    rw [String.toList_append, String.toList_append, List.append_assoc]
    rfl
  rw [text_of_labels h, String.toList_append, String.toList_append, String.toList_append,
    String.toList_intercalate, hlabels, List.append_assoc, List.append_assoc]
  rfl

/-- the labels are read back from what stands between the braces -/
theorem Separable.map_ofPiece {key : Key} (h : key.Separable) (hne : key.labels ≠ []) :
    (([','].intercalate (key.labels.map labelText)).splitOn ',').map ofPiece = key.labels := by
  have hcomma : ∀ piece ∈ key.labels.map labelText, ',' ∉ piece := by
    refine List.forall_mem_map.mpr fun l hl => ?_
    unfold labelText
    rw [List.mem_append, List.mem_cons, not_or, not_or]
    exact ⟨(h.label l hl).2, by decide, h.value l hl⟩
  rw [List.splitOn_intercalate ',' hcomma (by simpa using hne), List.map_map]
  refine (List.map_congr_left fun l hl => ?_).trans (List.map_id' _)
  exact ofPiece_labelText (h.label l hl).1

variable {a b : Key}

theorem labels_eq_nil_of_text_eq (hname : a.name = b.name) (h : a.text = b.text)
    (ha : a.labels = []) : b.labels = [] := by
  by_contra hb
  have htext : a.text = a.name := if_pos ha
  have hlist := toList_text hb
  rw [← h, htext, hname, List.self_eq_append_right] at hlist
  exact List.cons_ne_nil _ _ hlist

theorem labels_eq (ha : a.Separable) (hb : b.Separable) (hname : a.name = b.name)
    (h : a.text = b.text) : a.labels = b.labels := by
  by_cases hnil : a.labels = []
  · rw [hnil, labels_eq_nil_of_text_eq hname h hnil]
  · have hne : b.labels ≠ [] := fun hb' => hnil (labels_eq_nil_of_text_eq hname.symm h.symm hb')
    have hlist := toList_text hnil
    rw [h, toList_text hne, hname] at hlist
    have hinner := List.append_cancel_right (List.cons.inj (List.append_cancel_left hlist)).2
    rw [← ha.map_ofPiece hnil, ← hb.map_ofPiece hne, hinner]

/-- **Keys that can be read back have different texts if they are different.** -/
theorem text_inj (ha : a.Separable) (hb : b.Separable) (h : a.text = b.text) : a = b := by
  have hname : a.name = b.name := name_eq_of_text_eq ha.name hb.name h
  have hlabels : a.labels = b.labels := labels_eq ha hb hname h
  cases a
  cases b
  cases hname
  cases hlabels
  rfl

/-- a comma in a value looks like one between labels -/
example : text { name := "m", labels := [("a", "1,b=2")] } =
    text { name := "m", labels := [("a", "1"), ("b", "2")] } := by decide +kernel

end PipeTrace.Metrics.Key
