import PipeTrace.Proofs.Paragraphs
import PipeTrace.Proofs.Separation

/-!
# The summary of what was recorded

The summary lists the counters and gauges that were updated, and what it says of each of them is
known from the updates under its own text.

* `Change.Agree`         changes of one counter that come to the same: they are the same, or all of
                         them are additions and one list is a permutation of the other;
* `GaugeChange`          what can be done to a gauge, and `gauge?_applyAll` what that makes of it;
* `Metrics.Reordered`    updates that agree text by text, in whatever way they are mixed;
* `Metrics.ReorderedByKey`  the same key by key, which comes to that if no text stands for two keys;
* `Metrics.Listing`      entries that list all that was updated of one family, each text once;
* `Metrics.summaryLines` the lines of a summary with given entries.

Reordered updates leave the same counters and gauges (`applyAll_reordered`), so they leave the same
summary.
-/

set_option autoImplicit false

namespace PipeTrace.Metrics

/-! ## changes of one counter -/

namespace Change

/-- the same changes, or additions only and the same ones in another order -/
def Agree (xs ys : List Change) : Prop := xs = ys ∨ (∀ x ∈ xs, x.isAdd = true) ∧ xs.Perm ys

theorem tally_of_adds {xs : List Change} (h : ∀ x ∈ xs, x.isAdd = true) :
    tally xs = (xs.map amount).sum := by
  have hbase : xs.filter (! ·.isAdd) = [] := by
    rw [List.filter_eq_nil_iff]
    intro x hx
    rw [h x hx]
    exact Bool.false_ne_true
  have hadded : xs.rtakeWhile isAdd = xs := List.rtakeWhile_eq_self_iff.mpr h
  unfold tally base added
  rw [hbase, hadded]
  exact Nat.zero_add _

theorem Agree.foldl_eq {xs ys : List Change} (h : Agree xs ys) :
    xs.foldl Change.apply none = ys.foldl Change.apply none := by
  rcases h with rfl | ⟨hadds, hperm⟩
  · rfl
  · have hadds' : ∀ y ∈ ys, y.isAdd = true := fun y hy => hadds y (hperm.mem_iff.mpr hy)
    have htally : tally xs = tally ys := by
      rw [tally_of_adds hadds, tally_of_adds hadds', (hperm.map amount).sum_nat]
    rw [foldl_eq_tally, foldl_eq_tally, htally]
    refine if_congr ?_ rfl rfl
    rw [← List.length_eq_zero_iff, hperm.length_eq, List.length_eq_zero_iff]

end Change

/-! ## gauges under updates -/

inductive GaugeChange where
  | set (x : Float)
  | add (x : Float)
  | subtract (x : Float)

def GaugeChange.apply (v : Option Float) : GaugeChange → Option Float
  | set x => some x
  | add x => some (v.getD 0.0 + x)
  | subtract x => some (v.getD 0.0 - x)

/-- what an update does to the gauge of its key -/
def Update.onGauge? : Update → Option GaugeChange
  | gaugeSet _ x => some (.set x)
  | gaugeIncrement _ x => some (.add x)
  | gaugeDecrement _ x => some (.subtract x)
  | increment _ _ | absolute _ _ | observe _ _ => none

def Update.gaugeChange? (k : String) (u : Update) : Option GaugeChange :=
  if u.key.text = k then u.onGauge? else none

theorem gauge?_apply (m : Metrics) (u : Update) (k : String) :
    (m.apply u).gauge? k =
      (u.gaugeChange? k).elim (m.gauge? k) (GaugeChange.apply (m.gauge? k)) := by
  unfold Update.gaugeChange?
  by_cases hkey : u.key.text = k
  · subst hkey
    rw [if_pos rfl]
    cases u with
    | increment | absolute | observe => rfl
    | gaugeSet key x | gaugeIncrement key x | gaugeDecrement key x =>
      exact (gauge?_setGauge m key.text _ _).trans (if_pos rfl)
  · rw [if_neg hkey]
    exact gauge?_apply_of_other m fun _ => hkey

/-- **A gauge is what the changes under its own text made of it.** -/
theorem gauge?_applyAll (m : Metrics) (us : List Update) (k : String) :
    (m.applyAll us).gauge? k =
      (us.filterMap (·.gaugeChange? k)).foldl GaugeChange.apply (m.gauge? k) :=
  view_applyAll_of_changes (·.gauge? k) (·.gaugeChange? k) GaugeChange.apply
    (fun m u => gauge?_apply m u k) m us

theorem GaugeChange.foldl_eq_none_iff {xs : List GaugeChange} :
    xs.foldl GaugeChange.apply none = none ↔ xs = [] := by
  induction xs using List.reverseRecOn with
  | nil => exact iff_of_true rfl rfl
  | append_singleton xs x _ =>
    refine iff_of_false ?_ (List.concat_ne_nil x xs)
    rw [List.foldl_append]
    cases x <;> exact Option.some_ne_none _

section
variable {us : List Update} {k : String}

theorem gaugeChange?_eq_none_iff {u : Update} :
    u.gaugeChange? k = none ↔ (u.family = .gauge → u.key.text ≠ k) := by
  have hfamily : u.onGauge? = none ↔ u.family ≠ .gauge := by
    cases u <;> simp [Update.onGauge?, Update.family]
  unfold Update.gaugeChange?
  by_cases hkey : u.key.text = k
  · rw [if_pos hkey, hfamily]
    exact ⟨fun h hgauge => absurd hgauge h, fun h hgauge => h hgauge hkey⟩
  · rw [if_neg hkey]
    exact iff_of_true rfl fun _ => hkey

theorem gaugeChanges_eq_nil_iff : us.filterMap (·.gaugeChange? k) = [] ↔
    ∀ u ∈ us, u.family = .gauge → u.key.text ≠ k := by
  rw [List.filterMap_eq_nil_iff]
  exact forall₂_congr fun _ _ => gaugeChange?_eq_none_iff

theorem gauge?_recorded_eq_none_iff : (applyAll {} us).gauge? k = none ↔
    ∀ u ∈ us, u.family = .gauge → u.key.text ≠ k := by
  rw [gauge?_applyAll, gauge?_new, GaugeChange.foldl_eq_none_iff, gaugeChanges_eq_nil_iff]

end

/-! ## updates in another order -/

/-- under each text both lists do the same to the gauge and come to the same for the counter -/
structure Reordered (us vs : List Update) : Prop where
  counter : ∀ k, Change.Agree (us.filterMap (·.change? k)) (vs.filterMap (·.change? k))
  gauge : ∀ k, us.filterMap (·.gaugeChange? k) = vs.filterMap (·.gaugeChange? k)

/-- **Reordered updates leave the same counters and gauges.** -/
theorem applyAll_reordered {us vs : List Update} (h : Reordered us vs) :
    applyAll {} us = applyAll {} vs := by
  have hcounters : (applyAll {} us).counters = (applyAll {} vs).counters := by
    refine Std.ExtTreeMap.ext_getElem? fun k => ?_
    show (applyAll {} us).counter? k = (applyAll {} vs).counter? k
    rw [counter?_applyAll, counter?_applyAll, counter?_new, (h.counter k).foldl_eq]
  have hgauges : (applyAll {} us).gauges = (applyAll {} vs).gauges := by
    refine Std.ExtTreeMap.ext_getElem? fun k => ?_
    show (applyAll {} us).gauge? k = (applyAll {} vs).gauge? k
    rw [gauge?_applyAll, gauge?_applyAll, h.gauge k]
  cases hm : applyAll {} us
  cases hm' : applyAll {} vs
  rw [hm, hm'] at hcounters hgauges
  exact congr (congrArg Metrics.mk hcounters) hgauges

/-! ## keys and their texts -/

/-- what an update does to the counter of a key -/
def Update.changeOf? (key : Key) (u : Update) : Option Change :=
  (u.changed?.filter (·.1 = key)).map Prod.snd

def Update.gaugeChangeOf? (key : Key) (u : Update) : Option GaugeChange :=
  if u.key = key then u.onGauge? else none

/-- under each key both lists do the same to the gauge and come to the same for the counter -/
structure ReorderedByKey (us vs : List Update) : Prop where
  counter : ∀ key, Change.Agree (us.filterMap (·.changeOf? key)) (vs.filterMap (·.changeOf? key))
  gauge : ∀ key, us.filterMap (·.gaugeChangeOf? key) = vs.filterMap (·.gaugeChangeOf? key)

/-- no two counters and no two gauges that are updated have one text for different keys -/
def TellsApart (us : List Update) : Prop :=
  ∀ u ∈ us, ∀ v ∈ us, u.family = v.family → u.family ≠ .histogram → u.key.text = v.key.text →
    u.key = v.key

theorem tellsApart_of_separable {us : List Update} (h : ∀ u ∈ us, u.key.Separable) :
    TellsApart us := fun u hu v hv _ _ => Key.text_inj (h u hu) (h v hv)

section
variable {us : List Update} {key : Key}

/-- where only one key has a text, what is done under the text is done under the key -/
theorem filterMap_change?_text
    (h : ∀ u ∈ us, u.family = .counter → u.key.text = key.text → u.key = key) :
    us.filterMap (·.change? key.text) = us.filterMap (·.changeOf? key) := by
  refine List.filterMap_congr fun u hu => ?_
  have hkey := h u hu
  unfold Update.change? Update.changeOf?
  cases u with
  | increment key' n | absolute key' n =>
    have hiff : key'.text = key.text ↔ key' = key := ⟨hkey rfl, congrArg Key.text⟩
    simp only [Update.changed?, Option.filter_some, hiff]
  | gaugeSet | gaugeIncrement | gaugeDecrement | observe => rfl

theorem filterMap_gaugeChange?_text
    (h : ∀ u ∈ us, u.family = .gauge → u.key.text = key.text → u.key = key) :
    us.filterMap (·.gaugeChange? key.text) = us.filterMap (·.gaugeChangeOf? key) := by
  refine List.filterMap_congr fun u hu => ?_
  have hkey := h u hu
  unfold Update.gaugeChange? Update.gaugeChangeOf?
  cases u with
  | gaugeSet key' x | gaugeIncrement key' x | gaugeDecrement key' x =>
    exact if_congr ⟨hkey rfl, congrArg Key.text⟩ rfl rfl
  | increment | absolute | observe =>
    simp only [Update.onGauge?, ite_self]

end

/-- nothing of the family is updated under the text, or one key only -/
theorem TellsApart.none_or_one {us : List Update} (h : TellsApart us) {family : Family}
    (hfamily : family ≠ .histogram) (k : String) :
    (∀ u ∈ us, u.family = family → u.key.text ≠ k) ∨
      ∃ key : Key, key.text = k ∧
        ∀ u ∈ us, u.family = family → u.key.text = key.text → u.key = key := by
  by_cases hused : ∃ u ∈ us, u.family = family ∧ u.key.text = k
  · obtain ⟨u, hu, rfl, htext⟩ := hused
    exact .inr ⟨u.key, htext, fun v hv hfam => h v hv u hu hfam (by rwa [hfam])⟩
  · exact .inl fun u hu hfam htext => hused ⟨u, hu, hfam, htext⟩

/-- **Updates that agree key by key agree text by text**, if no text stands for two keys. -/
theorem ReorderedByKey.reordered {us vs : List Update} (h : ReorderedByKey us vs)
    (hkeys : TellsApart (us ++ vs)) : Reordered us vs where
  counter k := by
    rcases hkeys.none_or_one (nofun : Family.counter ≠ .histogram) k with hnone | ⟨key, rfl, hone⟩
    · obtain ⟨hus, hvs⟩ := List.forall_mem_append.mp hnone
      rw [changes_eq_nil_iff.mpr hus, changes_eq_nil_iff.mpr hvs]
      exact .inl rfl
    · obtain ⟨hus, hvs⟩ := List.forall_mem_append.mp hone
      rw [filterMap_change?_text hus, filterMap_change?_text hvs]
      exact h.counter key
  gauge k := by
    rcases hkeys.none_or_one (nofun : Family.gauge ≠ .histogram) k with hnone | ⟨key, rfl, hone⟩
    · obtain ⟨hus, hvs⟩ := List.forall_mem_append.mp hnone
      rw [gaugeChanges_eq_nil_iff.mpr hus, gaugeChanges_eq_nil_iff.mpr hvs]
    · obtain ⟨hus, hvs⟩ := List.forall_mem_append.mp hone
      rw [filterMap_gaugeChange?_text hus, filterMap_gaugeChange?_text hvs]
      exact h.gauge key

/-! ## what a summary lists -/

def Updates (us : List Update) (family : Family) (k : String) : Prop :=
  ∃ u ∈ us, u.family = family ∧ u.key.text = k

/-- the entries list all that was updated of a family with its value, each text once, in the order
of bytes -/
structure Listing (us : List Update) (family : Family) (value? : String → Option String)
    (entries : List (String × String)) : Prop where
  ascending : entries.Pairwise fun e e' => Text.bytesOf e.1 < Text.bytesOf e'.1
  mem_keys_iff : ∀ k, k ∈ entries.map Prod.fst ↔ Updates us family k
  mem_iff : ∀ k v, (k, v) ∈ entries ↔ value? k = some v

theorem updates_iff_of_eq_none_iff {us : List Update} {family : Family} {k : String} {α : Type}
    {v : Option α} (h : v = none ↔ ∀ u ∈ us, u.family = family → u.key.text ≠ k) :
    v ≠ none ↔ Updates us family k := by
  unfold Updates
  rw [ne_eq, h]
  push Not
  rfl

/-- the entries of a map are a listing if the map has the texts that were updated -/
theorem listing_of_map {us : List Update} {family : Family} {α : Type}
    {values : Std.ExtTreeMap String α} (text : α → String)
    (h : ∀ k, values[k]? ≠ none ↔ Updates us family k) :
    Listing us family (fun k => values[k]?.map text)
      (values.toList.map fun e => (e.1, text e.2)) where
  ascending := by
    rw [List.pairwise_map]
    refine Std.ExtTreeMap.ordered_keys_toList.imp fun hlt => ?_
    exact Text.bytesOf_lt_bytesOf (compareOfLessAndEq_eq_lt.mp hlt)
  mem_keys_iff k := by
    have hkeys : (values.toList.map fun e => (e.1, text e.2)).map Prod.fst = values.keys := by
      rw [List.map_map]
      exact Std.ExtTreeMap.map_fst_toList_eq_keys
    rw [hkeys, Std.ExtTreeMap.mem_keys, Std.ExtTreeMap.mem_iff_isSome_getElem?, ← h,
      Option.isSome_iff_ne_none]
  mem_iff k v := by
    rw [List.mem_map, Option.map_eq_some_iff]
    constructor
    · rintro ⟨e, hmem, heq⟩
      cases heq
      exact ⟨e.2, Std.ExtTreeMap.mem_toList_iff_getElem?_eq_some.mp hmem, rfl⟩
    · rintro ⟨x, hx, rfl⟩
      exact ⟨(k, x), Std.ExtTreeMap.mem_toList_iff_getElem?_eq_some.mpr hx, rfl⟩

theorem listing_counterEntries (us : List Update) :
    Listing us .counter (fun k => ((applyAll {} us).counter? k).map toString)
      (applyAll {} us).counterEntries :=
  listing_of_map toString fun _ => updates_iff_of_eq_none_iff counter?_recorded_eq_none_iff

theorem listing_gaugeEntries (us : List Update) :
    Listing us .gauge (fun k => ((applyAll {} us).gauge? k).map (Decimal.places 6))
      (applyAll {} us).gaugeEntries :=
  listing_of_map (Decimal.places 6) fun _ => updates_iff_of_eq_none_iff gauge?_recorded_eq_none_iff

theorem Listing.eq_nil_iff {us : List Update} {family : Family} {value? : String → Option String}
    {entries : List (String × String)} (h : Listing us family value? entries) :
    entries = [] ↔ ∀ u ∈ us, u.family ≠ family := by
  rw [← List.map_eq_nil_iff (f := Prod.fst), List.eq_nil_iff_forall_not_mem]
  simp only [h.mem_keys_iff, Updates]
  constructor
  · exact fun hnone u hu hfamily => hnone u.key.text ⟨u, hu, hfamily, rfl⟩
  · rintro hnone k ⟨u, hu, hfamily, -⟩
    exact hnone u hu hfamily

/-! ## the lines of a summary -/

/-- the lines about one family, if there is anything to list -/
def groupLines (title : String) (entries : List (String × String)) : List String :=
  if entries = [] then []
  else ["### " ++ title] ++ entries.map (fun e => "  " ++ e.1 ++ ": " ++ e.2) ++ [""]

def summaryLines (counters gauges : List (String × String)) : List String :=
  if counters = [] ∧ gauges = [] then ["No metrics collected."]
  else ["", "## Metrics Summary", ""] ++ groupLines "Counters" counters ++
    groupLines "Gauges" gauges

theorem group_eq_linesText (title : String) (entries : List (String × String)) :
    group title entries = linesText (groupLines title entries) := by
  unfold group groupLines
  split
  · rfl
  · rw [linesText_append, linesText_append, linesText_singleton, linesText_singleton]
    have hentries : linesText (entries.map fun e => "  " ++ e.1 ++ ": " ++ e.2) =
        String.join (entries.map fun e => entryLine e.1 e.2) := by
      unfold linesText
      rw [List.map_map]
      rfl
    rw [hentries]
    rfl

theorem isEmpty_iff_map_toList {α β : Type} (values : Std.ExtTreeMap String α)
    (f : String × α → β) : values.isEmpty = true ↔ values.toList.map f = [] := by
  rw [List.map_eq_nil_iff, ← List.isEmpty_iff, Std.ExtTreeMap.isEmpty_toList]

theorem summary_eq_linesText (m : Metrics) :
    m.summary = linesText (summaryLines m.counterEntries m.gaugeEntries) := by
  have hnone : (m.counters.isEmpty && m.gauges.isEmpty) = true ↔
      m.counterEntries = [] ∧ m.gaugeEntries = [] := by
    rw [Bool.and_eq_true]
    exact and_congr (isEmpty_iff_map_toList _ _) (isEmpty_iff_map_toList _ _)
  unfold summary summaryLines
  by_cases hempty : m.counterEntries = [] ∧ m.gaugeEntries = []
  · rw [if_pos (hnone.mpr hempty), if_pos hempty]
    rfl
  · rw [if_neg (mt hnone.mp hempty), if_neg hempty, linesText_append, linesText_append,
      ← group_eq_linesText, ← group_eq_linesText]
    rfl

theorem summary_eq_none_iff (m : Metrics) :
    m.summary = "No metrics collected.\n" ↔ m.counterEntries = [] ∧ m.gaugeEntries = [] := by
  rw [summary_eq_linesText]
  unfold summaryLines
  split
  · rename_i hempty
    exact iff_of_true rfl hempty
  · rename_i hlisted
    refine iff_of_false (fun heq => ?_) hlisted
    -- a summary that lists something begins with an empty line
    rw [List.append_assoc, linesText_append] at heq
    have hfirst := congrArg (fun s => s.toList.head?) heq
    simp [linesText, String.toList_append] at hfirst

/-- **The summary depends on what was recorded, not on the order.**  Updates that are mixed in
another way, and additions to a counter that are made in another order, leave the same summary, if
no text stands for two of their keys; what matters is what is done under each text.  The summary
lists each counter and then each gauge that was updated once, with its value, in the order of bytes,
and leaves out a list that is empty; if nothing was updated it says so in one line. -/
theorem summary_of_recorded (us : List Update) :
    (∀ vs, ReorderedByKey us vs → TellsApart (us ++ vs) →
      (applyAll {} us).summary = (applyAll {} vs).summary) ∧
    (∀ vs, Reordered us vs → (applyAll {} us).summary = (applyAll {} vs).summary) ∧
    (∃ counters gauges,
      Listing us .counter (fun k => ((applyAll {} us).counter? k).map toString) counters ∧
      Listing us .gauge (fun k => ((applyAll {} us).gauge? k).map (Decimal.places 6)) gauges ∧
      (applyAll {} us).summary = linesText (summaryLines counters gauges)) ∧
    ((applyAll {} us).summary = "No metrics collected.\n" ↔ ∀ u ∈ us, u.family = .histogram) := by
  refine ⟨fun vs h hkeys => ?_, fun vs h => ?_, ⟨_, _, listing_counterEntries us,
    listing_gaugeEntries us, summary_eq_linesText _⟩, ?_⟩
  · rw [applyAll_reordered (h.reordered hkeys)]
  · rw [applyAll_reordered h]
  · rw [summary_eq_none_iff, (listing_counterEntries us).eq_nil_iff,
      (listing_gaugeEntries us).eq_nil_iff, ← forall₂_and]
    refine forall₂_congr fun u _ => ?_
    cases u.family <;> decide

theorem changesOf_eq_nil {us : List Update} {key : Key} (h : ∀ u ∈ us, u.key ≠ key) :
    us.filterMap (·.changeOf? key) = [] := by
  refine List.filterMap_eq_nil_iff.mpr fun u hu => ?_
  have hne := h u hu
  unfold Update.changeOf?
  cases u with
  | increment key' n | absolute key' n =>
    have hfalse : decide (key' = key) = false := decide_eq_false hne
    simp only [Update.changed?, Option.filter_some, hfalse]
    rfl
  | gaugeSet | gaugeIncrement | gaugeDecrement | observe => rfl

/-- two keys with one name, a counter and a gauge under one key, and additions in another order -/
theorem summary_of_recorded_mixed :
    let plain : Key := { name := "c" }
    let labelled : Key := { name := "c", labels := [("a", "1")] }
    let us : List Update := [.increment plain 3, .gaugeSet plain 2.0, .absolute labelled 1,
      .increment plain 4, .increment labelled 5, .gaugeIncrement plain 0.5, .observe labelled 1.0]
    let vs : List Update := [.absolute labelled 1, .increment labelled 5, .gaugeSet plain 2.0,
      .increment plain 4, .gaugeIncrement plain 0.5, .increment plain 3]
    ReorderedByKey us vs ∧ TellsApart (us ++ vs) ∧
    (applyAll {} us).summary = (applyAll {} vs).summary ∧
    (applyAll {} vs).summary = "\n## Metrics Summary\n\n" ++
      "### Counters\n  c: 7\n  c\x7ba=1\x7d: 6\n\n### Gauges\n  c: 2.500000\n\n" := by
  intro plain labelled us vs
  have hcounter : ∀ key,
      Change.Agree (us.filterMap (·.changeOf? key)) (vs.filterMap (·.changeOf? key)) := by
    intro key
    by_cases hplain : plain = key
    · subst hplain
      exact .inr ⟨by decide +kernel, by decide +kernel⟩
    · by_cases hlabelled : labelled = key
      · subst hlabelled
        exact .inl (by decide +kernel)
      · refine .inl ?_
        rw [changesOf_eq_nil (by simp [us, Update.key, hplain, hlabelled]),
          changesOf_eq_nil (by simp [vs, Update.key, hplain, hlabelled])]
  have hgauge : ∀ key,
      us.filterMap (·.gaugeChangeOf? key) = vs.filterMap (·.gaugeChangeOf? key) := by
    intro key
    simp only [us, vs, List.filterMap_cons, Update.gaugeChangeOf?, Update.onGauge?, ite_self]
  have hkeys : TellsApart (us ++ vs) := by
    have hseparable : plain.Separable ∧ labelled.Separable := by
      refine ⟨⟨by decide, ?_, ?_⟩, by decide, ?_, ?_⟩ <;> simp [plain, labelled]
    exact tellsApart_of_separable (by simp [us, vs, Update.key, hseparable])
  have h : ReorderedByKey us vs := ⟨hcounter, hgauge⟩
  exact ⟨h, hkeys, (summary_of_recorded us).1 vs h hkeys, by decide +kernel⟩

/-- a comma in a value looks like one between labels: the two keys have one text, and which of them
is updated last makes a difference -/
theorem summary_of_keys_with_one_text :
    let a : Key := { name := "m", labels := [("a", "1,b=2")] }
    let b : Key := { name := "m", labels := [("a", "1"), ("b", "2")] }
    let us : List Update := [.absolute a 10, .absolute b 20]
    let vs : List Update := [.absolute b 20, .absolute a 10]
    a ≠ b ∧ ReorderedByKey us vs ∧ (applyAll {} us).summary ≠ (applyAll {} vs).summary := by
  intro a b us vs
  have hcounter : ∀ key,
      Change.Agree (us.filterMap (·.changeOf? key)) (vs.filterMap (·.changeOf? key)) := by
    intro key
    refine .inl ?_
    by_cases ha : a = key
    · subst ha
      decide +kernel
    · by_cases hb : b = key
      · subst hb
        decide +kernel
      · rw [changesOf_eq_nil (by simp [us, Update.key, ha, hb]),
          changesOf_eq_nil (by simp [vs, Update.key, ha, hb])]
  have hgauge : ∀ key,
      us.filterMap (·.gaugeChangeOf? key) = vs.filterMap (·.gaugeChangeOf? key) := by
    intro key
    simp only [us, vs, List.filterMap_cons, List.filterMap_nil, Update.gaugeChangeOf?,
      Update.onGauge?, ite_self]
  exact ⟨by decide +kernel, ⟨hcounter, hgauge⟩, by decide +kernel⟩

end PipeTrace.Metrics
