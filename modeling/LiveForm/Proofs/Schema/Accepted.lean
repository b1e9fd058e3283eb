import LiveForm.Schema.Report
import LiveForm.Proofs.Graph.Complete
import LiveForm.Proofs.Schema.Native

/-!
# Schemas without errors

A report without errors vouches for all that a session needs of a schema: distinct keys, references
to declared fields, and free values that can be written as JSON.

* `OnlyWarnings`: nothing but warnings was found;
* `Schema.onlyWarnings_of_report`: so it is when a report has no errors;
* **`Schema.graphProblems_of_report`, `Schema.serializable_of_report`**: then the graph has no
  problems, and all free values can be written as JSON;
* `Schema.holdsScript_of_report`: and no script is found in the values of rules.
-/

namespace LiveForm

/-- Nothing but warnings was found. -/
def OnlyWarnings (ns : List Notice) : Prop := ∀ n ∈ ns, n.kind = .schemaWarning

section

variable {ms ns : List Notice} {message path : String} {details : List (String × Value)}

theorem onlyWarnings_append : OnlyWarnings (ms ++ ns) ↔ OnlyWarnings ms ∧ OnlyWarnings ns :=
  List.forall_mem_append

theorem onlyWarnings_flatten_mapIdx {α : Type} {l : List α} {f : ℕ → α → List Notice} :
    OnlyWarnings (l.mapIdx f).flatten ↔ ∀ i a, l[i]? = some a → OnlyWarnings (f i a) := by
  constructor
  · intro h i a ha n hn
    obtain ⟨hi, rfl⟩ := List.getElem?_eq_some_iff.mp ha
    exact h n (List.mem_flatten.mpr ⟨_, List.mem_mapIdx.mpr ⟨i, hi, rfl⟩, hn⟩)
  · intro h n hn
    obtain ⟨part, hpart, hn⟩ := List.mem_flatten.mp hn
    obtain ⟨i, hi, rfl⟩ := List.mem_mapIdx.mp hpart
    exact h i _ (List.getElem?_eq_getElem hi) n hn

theorem not_onlyWarnings_error : ¬ OnlyWarnings [.schemaError message path details] := fun h =>
  Notice.Kind.noConfusion (h _ List.mem_cons_self)

/-- An error that is found unless something holds. -/
theorem onlyWarnings_unless {c : Prop} [Decidable c] :
    OnlyWarnings (if c then [] else [.schemaError message path details]) ↔ c := by
  split
  · next hc => exact iff_of_true (fun _ h => absurd h List.not_mem_nil) hc
  · next hc => exact iff_of_false not_onlyWarnings_error hc

end

namespace Schema

variable {s : Schema} {grid : Int}

/-- **A report without errors holds nothing but warnings.** -/
theorem onlyWarnings_of_report (h : (s.report grid).errors = []) :
    OnlyWarnings (s.findings grid) := by
  intro n hn
  by_contra hkind
  have hmem : n ∈ (s.report grid).errors :=
    List.mem_append_left _ (List.mem_filter.mpr ⟨hn, decide_eq_true hkind⟩)
  rw [h] at hmem
  cases hmem

/-! ## Fields -/

theorem serializable_of_freeValueFindings {path : String} {f : Field}
    (h : OnlyWarnings (freeValueFindings path f)) : f.Serializable := by
  obtain ⟨hdefault, hchoices⟩ := onlyWarnings_append.mp h
  refine ⟨onlyWarnings_unless.mp hdefault, fun c hc => ?_⟩
  obtain ⟨i, hi⟩ := List.getElem?_of_mem hc
  exact onlyWarnings_unless.mp (onlyWarnings_flatten_mapIdx.mp hchoices i c hi)

theorem not_mem_of_keyFindings {path : String} {before : List String} {f : Field}
    (h : OnlyWarnings (keyFindings path before f)) : f.key ∉ before := by
  intro hmem
  rw [keyFindings] at h
  split at h
  · exact not_onlyWarnings_error h
  · rw [if_pos (List.contains_iff_mem.mpr hmem)] at h
    exact not_onlyWarnings_error h

theorem of_fieldFindings {index : ℕ} {before : List String} {fs : List Field}
    (h : OnlyWarnings (fieldFindings index before fs)) :
    (fs.map Field.key).Nodup ∧ (∀ f ∈ fs, f.key ∉ before) ∧ ∀ f ∈ fs, f.Serializable := by
  induction fs generalizing index before with
  | nil => simp
  | cons f fs ih =>
    rw [fieldFindings] at h
    simp only [onlyWarnings_append] at h
    obtain ⟨⟨⟨⟨hkey, -⟩, hfree⟩, -⟩, hrest⟩ := h
    obtain ⟨hnodup, hbefore, hserializable⟩ := ih hrest
    refine ⟨?_, List.forall_mem_cons.mpr ⟨not_mem_of_keyFindings hkey, fun g hg hmem =>
        hbefore g hg (List.mem_cons_of_mem _ hmem)⟩,
      List.forall_mem_cons.mpr ⟨serializable_of_freeValueFindings hfree, hserializable⟩⟩
    refine List.nodup_cons.mpr ⟨fun hmem => ?_, hnodup⟩
    obtain ⟨g, hg, heq⟩ := List.mem_map.mp hmem
    exact hbefore g hg (heq ▸ List.mem_cons_self)

theorem mem_of_sourceFindings (h : OnlyWarnings s.sourceFindings) {f : Field} (hf : f ∈ s.fields)
    {source : String} (hsource : source ∈ f.sources) : source ∈ s.fieldKeys := by
  obtain ⟨i, hi⟩ := List.getElem?_of_mem hf
  obtain ⟨j, hj⟩ := List.getElem?_of_mem hsource
  have hfield := onlyWarnings_flatten_mapIdx.mp h i f hi
  exact List.contains_iff_mem.mp
    (onlyWarnings_unless.mp (onlyWarnings_flatten_mapIdx.mp hfield j source hj))

/-! ## Rules -/

theorem of_ruleValueFindings {path part : String} {r : Rule} {v : Value}
    (h : OnlyWarnings (ruleValueFindings path r part v)) :
    v.serializable = true ∧ v.holdsScript = false := by
  unfold ruleValueFindings at h
  split at h
  · exact absurd h not_onlyWarnings_error
  · next hv =>
    split at h
    · exact absurd h not_onlyWarnings_error
    · next hscript => simpa using And.intro hv hscript

/-- Rules refer to declared fields, and their free values can be written as JSON and hold no script
that is looked for. -/
theorem of_ruleFindings {index : ℕ} {before : List String} {rs : List Rule}
    (h : OnlyWarnings (ruleFindings s index before rs)) : ∀ r ∈ rs,
      (r.trigger ∈ s.fieldKeys ∧ r.target ∈ s.fieldKeys) ∧ r.Serializable ∧
        r.compare.holdsScript = false ∧ r.effectValue.holdsScript = false := by
  induction rs generalizing index before with
  | nil => exact fun _ hr => absurd hr List.not_mem_nil
  | cons r rs ih =>
    rw [ruleFindings] at h
    dsimp only [endFindings] at h
    simp only [onlyWarnings_append, onlyWarnings_unless, List.contains_iff_mem] at h
    obtain ⟨⟨⟨⟨⟨-, ⟨htrigger, htarget⟩, -⟩, hcompare⟩, heffect⟩, -⟩, hrest⟩ := h
    obtain ⟨hcompare, hcompareMarks⟩ := of_ruleValueFindings hcompare
    obtain ⟨heffect, heffectMarks⟩ := of_ruleValueFindings heffect
    exact List.forall_mem_cons.mpr ⟨⟨⟨htrigger, htarget⟩, ⟨hcompare, heffect⟩, hcompareMarks,
      heffectMarks⟩, ih hrest⟩

/-! ## Schemas -/

/-- **A schema whose report has no errors has no problems of its graph.** -/
theorem graphProblems_of_report (h : (s.report grid).errors = []) : s.graphProblems = [] := by
  have hfound := onlyWarnings_of_report h
  simp only [findings, onlyWarnings_append] at hfound
  obtain ⟨⟨⟨⟨-, hfields⟩, hsources⟩, hrules⟩, -⟩ := hfound
  refine graphProblems_eq_nil_iff.mpr ⟨(of_fieldFindings hfields).1, fun source target hfeeds => ?_⟩
  rcases feeds_iff.mp hfeeds with ⟨f, hf, rfl, hsource⟩ | ⟨r, hr, rfl, rfl⟩
  · exact ⟨mem_of_sourceFindings hsources hf hsource, List.mem_map_of_mem hf⟩
  · exact (of_ruleFindings hrules r hr).1

/-- **Its free values can be written as JSON.** -/
theorem serializable_of_report (h : (s.report grid).errors = []) : s.Serializable := by
  have hfound := onlyWarnings_of_report h
  simp only [findings, onlyWarnings_append] at hfound
  obtain ⟨⟨⟨⟨-, hfields⟩, -⟩, hrules⟩, -⟩ := hfound
  exact ⟨(of_fieldFindings hfields).2.2, fun r hr => (of_ruleFindings hrules r hr).2.1⟩

/-- **No script is found in the values of its rules.** -/
theorem holdsScript_of_report (h : (s.report grid).errors = []) : ∀ r ∈ s.rules,
    r.compare.holdsScript = false ∧ r.effectValue.holdsScript = false := by
  have hfound := onlyWarnings_of_report h
  simp only [findings, onlyWarnings_append] at hfound
  obtain ⟨⟨-, hrules⟩, -⟩ := hfound
  exact fun r hr => (of_ruleFindings hrules r hr).2.2

end Schema

end LiveForm
