import RowFilter.Proofs.Lifetimes

/-!
Spellings of labels. A registry looks a label up as a whole in lower case, and only a label that it
does not know is looked for among the models, by its app as it is spelled and by its name in any
case. The two agree on a label whose app is spelled in lower case: what is under it was made of the
very model that the label means, since a label is an app, a dot and a name in lower case. A label
whose app is spelled otherwise may mean no model, or another one, and still be found.
-/

namespace RowFilter

namespace Text

theorem ofNat_ne_dot {n : Nat} (h : n ≠ '.'.toNat) : Char.ofNat n ≠ '.' := by
  intro heq
  have hval : (Char.ofNat n).toNat = '.'.toNat := by
    rw [heq]
  by_cases hvalid : n.isValidChar
  · rw [Char.ofNat, dif_pos hvalid] at hval
    exact h hval
  · rw [Char.ofNat, dif_neg hvalid] at hval
    cases hval

theorem lowerChar_eq_dot_iff {c : Char} : lowerChar c = '.' ↔ c = '.' := by
  constructor
  · intro h
    unfold lowerChar at h
    split at h
    · next hsmall =>
      have hascii : ∀ n < 128, (Char.ofNat n).toLower = '.' → Char.ofNat n = '.' := by decide
      have hc := hascii c.toNat hsmall
      rw [Char.ofNat_toNat] at hc
      exact hc h
    · split at h
      · next run hrun =>
        have hshift : ∀ run ∈ caseRuns, (46 : Int) < run.first + run.shift := by decide +kernel
        have hrange := List.find?_some hrun
        simp only [CaseRun.contains, Bool.and_eq_true, decide_eq_true_eq] at hrange
        have hlow := hshift run (List.mem_of_find?_eq_some hrun)
        refine absurd h (ofNat_ne_dot ?_)
        show _ ≠ 46
        omega
      · exact h
  · rintro rfl
    decide

theorem count_dot_lowerAt (before after : List Char) (c : Char) :
    (lowerAt before c after).count '.' = [c].count '.' := by
  unfold lowerAt
  split_ifs with hdotted hsigma hfinal
  · subst hdotted
    decide
  · subst hsigma
    decide
  · subst hsigma
    decide
  · by_cases hc : c = '.'
    · rw [hc]
      decide
    · rw [List.count_singleton, List.count_singleton]
      simp [hc, lowerChar_eq_dot_iff]

theorem count_dot_lowerAfter (before cs : List Char) :
    (lowerAfter before cs).count '.' = cs.count '.' := by
  induction cs generalizing before with
  | nil => rfl
  | cons c cs ih =>
      rw [lowerAfter, List.count_append, ih, count_dot_lowerAt, ← List.count_append]
      rfl

theorem count_dot_lower (s : String) : (lower s).toList.count '.' = s.toList.count '.' := by
  rw [lower, String.toList_ofList]
  exact count_dot_lowerAfter [] s.toList

/-- Only the small form of the capital sigma depends on what is around it. -/
theorem lowerAfter_of_not_mem {cs : List Char} (h : 'Σ' ∉ cs) (before : List Char) :
    lowerAfter before cs = cs.flatMap (lowerAt [] · []) := by
  induction cs generalizing before with
  | nil => rfl
  | cons c cs ih =>
      have hc : c ≠ 'Σ' := (List.ne_of_not_mem_cons h).symm
      have hfree : lowerAt before c cs = lowerAt [] c [] := by
        rw [lowerAt, lowerAt, if_neg hc, if_neg hc]
      rw [lowerAfter, hfree, ih (List.not_mem_of_not_mem_cons h), List.flatMap_cons]

theorem lower_append {s t : String} (h : 'Σ' ∉ (s ++ t).toList) :
    lower (s ++ t) = lower s ++ lower t := by
  have hparts : 'Σ' ∉ s.toList ∧ 'Σ' ∉ t.toList := by simpa using h
  rw [← String.toList_inj]
  simp only [lower, String.toList_append, String.toList_ofList]
  rw [String.toList_append] at h
  rw [lowerAfter_of_not_mem h, lowerAfter_of_not_mem hparts.1, lowerAfter_of_not_mem hparts.2,
    List.flatMap_append]

/-- Lower case keeps an app that is in lower case, and the dot after it. -/
theorem lower_label {app name : String} (h : 'Σ' ∉ (app ++ "." ++ name).toList)
    (happ : lower app = app) : lower (app ++ "." ++ name) = app ++ "." ++ lower name := by
  have hhead : 'Σ' ∉ (app ++ ".").toList := by
    rw [String.toList_append] at h
    exact fun hmem => h (List.mem_append_left _ hmem)
  have hdot : lower "." = "." := by decide
  rw [lower_append h, lower_append hhead, happ, hdot]

theorem pieces_dot_eq_pair_iff {s first second : String} :
    pieces '.' s = [first, second] ↔
      s = first ++ "." ++ second ∧ '.' ∉ first.toList ∧ '.' ∉ second.toList := by
  constructor
  · intro h
    have hjoined := intercalate_pieces '.' s
    have hfree : ∀ piece ∈ [first, second], '.' ∉ piece.toList :=
      fun piece hpiece => not_mem_of_mem_pieces (h ▸ hpiece)
    rw [h] at hjoined
    exact ⟨hjoined.symm, hfree first (by simp), hfree second (by simp)⟩
  · rintro ⟨rfl, hfirst, hsecond⟩
    have hfree : ∀ piece ∈ [first, second], '.' ∉ piece.toList := by simp [hfirst, hsecond]
    exact pieces_intercalate (List.cons_ne_nil first [second]) hfree

theorem dot_not_mem_lower {s : String} (h : '.' ∉ s.toList) : '.' ∉ (lower s).toList := by
  rw [← List.count_eq_zero] at h ⊢
  rw [count_dot_lower, h]

end Text

/-- Whether every model is found by its key, and by its label, which no other model has. -/
structure Schema.Installed (schema : Schema) : Prop where
  find?_key : ∀ m ∈ schema.models, schema.find? m.key = some m
  isListed : ∀ m ∈ schema.models, m.isListed = true
  app_mem : ∀ m ∈ schema.models, m.app ∈ schema.apps
  dot_not_mem : ∀ m ∈ schema.models, '.' ∉ m.app.toList ∧ '.' ∉ m.name.toList
  label_inj : ∀ m ∈ schema.models, ∀ other ∈ schema.models, m.label = other.label → m = other

namespace Schema.Installed

variable {schema : Schema} {m : Model} {s name : String}

theorem modelOfLabel_eq (h : schema.Installed) (hm : m ∈ schema.models)
    (hname : Text.lower name = m.lowerName) (hparts : Text.pieces '.' s = [m.app, name]) :
    schema.modelOfLabel s = .ok m := by
  have hfound : schema.named? m.app name = some m := by
    obtain ⟨other, hother⟩ : ∃ other, schema.named? m.app name = some other := by
      refine Option.isSome_iff_exists.1 (List.find?_isSome.2 ⟨m, hm, ?_⟩)
      simp [h.isListed m hm, hname]
    have hlike := List.find?_some hother
    simp only [Bool.and_eq_true, beq_iff_eq, hname] at hlike
    have hlabel : other.label = m.label := by
      rw [Model.label, Model.label, hlike.1.2, hlike.2]
    rw [hother, h.label_inj other (List.mem_of_find?_eq_some hother) m hm hlabel]
  have hknown : schema.apps.contains m.app = true := List.contains_iff_mem.2 (h.app_mem m hm)
  simp only [modelOfLabel, hparts, hfound, hknown, Bool.not_true, Bool.false_eq_true, if_false]

/-- A text that is the label of a model in lower case means this model, if its app is spelled as
that of the model is. -/
theorem modelOfLabel_of_lower (h : schema.Installed) (hm : m ∈ schema.models)
    (hlabel : Text.lower s = m.label) (hsigma : 'Σ' ∉ s.toList)
    (happ : ∀ app name, Text.pieces '.' s = [app, name] → Text.lower app = app) :
    schema.modelOfLabel s = .ok m := by
  have hlabelled : Text.pieces '.' m.label = [m.app, m.lowerName] := by
    obtain ⟨hfirst, hsecond⟩ := h.dot_not_mem m hm
    exact Text.pieces_dot_eq_pair_iff.2 ⟨rfl, hfirst, Text.dot_not_mem_lower hsecond⟩
  -- lower case keeps the dots, so the text has two parts as well
  obtain ⟨app, name, hparts⟩ : ∃ app name, Text.pieces '.' s = [app, name] := by
    rw [← List.length_eq_two, Text.length_pieces, ← Text.count_dot_lower, hlabel,
      ← Text.length_pieces, hlabelled]
    rfl
  obtain ⟨rfl, hfirst, hsecond⟩ := Text.pieces_dot_eq_pair_iff.1 hparts
  have hlower : Text.pieces '.' m.label = [app, Text.lower name] := by
    rw [← hlabel, Text.lower_label hsigma (happ app name hparts)]
    exact Text.pieces_dot_eq_pair_iff.2 ⟨rfl, hfirst, Text.dot_not_mem_lower hsecond⟩
  obtain ⟨rfl, hname⟩ : app = m.app ∧ Text.lower name = m.lowerName := by
    simpa using hlower.symm.trans hlabelled
  exact h.modelOfLabel_eq hm hname hparts

end Schema.Installed

namespace EntityRegistry

variable {schema : Schema} {registry : EntityRegistry} {m : Model} {e : Entity} {s : String}

def modelResolved (schema : Schema) (s : String) (registry : EntityRegistry) :
    Except Fault String :=
  (·.model) <$> (resolve schema (.label s) registry).1.result

/-- The model that a label means, by its key, if the relations of the model can be read. -/
def modelMeant (schema : Schema) (s : String) : Except Fault String := do
  let m ← schema.modelOfLabel s
  (fun _ => m.key) <$> (schema.relationTable m).result

theorem modelMeant_eq_ok_iff {key : String} : modelMeant schema s = .ok key ↔
    ∃ m, schema.modelOfLabel s = .ok m ∧ m.key = key ∧
      ∃ table, (schema.relationTable m).result = .ok table := by
  rw [modelMeant]
  cases schema.modelOfLabel s with
  | error fault => simp [bind, Except.bind]
  | ok m =>
      simp only [Except.ok.injEq, exists_eq_left', bind, Except.bind]
      cases (schema.relationTable m).result with
      | error fault => simp
      | ok table => simp

theorem Sound.model_register (hkeys : ∀ m ∈ schema.models, schema.find? m.key = some m)
    (h : registry.Sound schema) (hm : m ∈ schema.models) :
    (·.model) <$> (register schema m registry).1.result =
      (fun _ => m.key) <$> (schema.relationTable m).result := by
  rcases register_cases schema registry m with
    ⟨fault, htable, hfault, _⟩ | ⟨e, he, hfrom⟩
  · rw [hfault, htable]
    rfl
  · have hmade : ∃ id, (schema.buildEntity id m).result = .ok e := by
      rcases hfrom with ⟨hfound, hkey, _⟩ | ⟨_, hmade, _⟩
      · exact ⟨_, h.result_buildEntity hkeys hm hfound hkey⟩
      · exact ⟨_, hmade⟩
    obtain ⟨id, hmade⟩ := hmade
    obtain ⟨table, htable, rfl⟩ := result_buildEntity_eq_ok_iff.1 hmade
    rw [he, htable]
    rfl

/-- A label that the registry does not know is resolved to the model that it means. -/
theorem Sound.modelResolved_of_none (hkeys : ∀ m ∈ schema.models, schema.find? m.key = some m)
    (h : registry.Sound schema) (hnew : registry.getLabel? s = none) :
    modelResolved schema s registry = modelMeant schema s := by
  rw [modelResolved, modelMeant, resolve_label_of_none hnew]
  cases hmodel : schema.modelOfLabel s with
  | error fault => rfl
  | ok m => exact h.model_register hkeys (mem_of_modelOfLabel hmodel)

theorem modelResolved_of_some (h : registry.getLabel? s = some e) :
    modelResolved schema s registry = .ok e.model := by
  rw [modelResolved, resolve_label_of_some h]
  rfl

/-- The models whose entities a registry has are those of the schema with their labels. -/
theorem Sound.exists_model (h : registry.Sound schema) (hfound : registry.getLabel? s = some e) :
    ∃ m ∈ schema.models, m.key = e.model ∧ m.label = Text.lower s ∧
      ∃ table, (schema.relationTable m).result = .ok table := by
  obtain ⟨_, m, hm, hlabel, hmade⟩ := h.made _ e hfound
  obtain ⟨table, htable, heq⟩ := result_buildEntity_eq_ok_iff.1 hmade
  exact ⟨m, hm, by rw [heq], hlabel, table, htable⟩

/-- A label is resolved to the model that it means exactly if what is found under it, if anything,
is of this model. -/
theorem Sound.modelResolved_eq_iff (hkeys : ∀ m ∈ schema.models, schema.find? m.key = some m)
    (h : registry.Sound schema) : modelResolved schema s registry = modelMeant schema s ↔
      ∀ e, registry.getLabel? s = some e →
        ∃ m, schema.modelOfLabel s = .ok m ∧ m.key = e.model := by
  cases hfound : registry.getLabel? s with
  | none => simp [h.modelResolved_of_none hkeys hfound]
  | some e =>
      obtain ⟨m, hm, hkey, _, table, htable⟩ := h.exists_model hfound
      rw [modelResolved_of_some hfound, eq_comm, modelMeant_eq_ok_iff]
      constructor
      · rintro ⟨other, hother, hsame, _⟩ _ ⟨⟩
        exact ⟨other, hother, hsame⟩
      · intro hmeant
        obtain ⟨other, hother, hsame⟩ := hmeant e rfl
        have heq : m = other := by
          have hfirst := hkeys other (mem_of_modelOfLabel hother)
          rw [hsame, ← hkey, hkeys m hm] at hfirst
          exact Option.some.inj hfirst
        exact ⟨other, hother, hsame, table, heq ▸ htable⟩

end EntityRegistry

namespace EntityCall

variable {schema : Schema} {calls : List EntityCall}

open EntityRegistry

/-- After any calls, a label is resolved as by a new registry exactly if what is found under it, if
anything, is of the model that the label means. So is every label that has a capital in the name at
most, and no capital sigma. -/
theorem modelResolved_run (hinstalled : schema.Installed) (number : Nat)
    (hcalls : ∀ c ∈ calls, c.IsOn schema) (s : String) :
    (modelResolved schema s (run schema calls { number }) = modelResolved schema s { number } ↔
      ∀ e, (run schema calls { number }).getLabel? s = some e →
        ∃ m, schema.modelOfLabel s = .ok m ∧ m.key = e.model) ∧
    ('Σ' ∉ s.toList → (∀ app name, Text.pieces '.' s = [app, name] → Text.lower app = app) →
      modelResolved schema s (run schema calls { number }) =
        modelResolved schema s { number }) := by
  have hnew : modelResolved schema s { number } = modelMeant schema s :=
    (Sound.new schema number).modelResolved_of_none hinstalled.find?_key rfl
  have hsound : (run schema calls { number }).Sound schema :=
    sound_run (.new schema number) hcalls
  rw [hnew]
  have hiff := hsound.modelResolved_eq_iff (s := s) hinstalled.find?_key
  refine ⟨hiff, fun hsigma happ => hiff.2 fun e he => ?_⟩
  obtain ⟨m, hm, hkey, hlabel, _⟩ := hsound.exists_model he
  exact ⟨m, hinstalled.modelOfLabel_of_lower hm hlabel.symm hsigma happ, hkey⟩

end EntityCall

namespace Blog

theorem installed : schema.Installed where
  find?_key := by decide +kernel
  isListed := by decide +kernel
  app_mem := by decide +kernel
  dot_not_mem := by decide +kernel
  label_inj := by
    intro m hm other hother hlabel
    simp only [schema, List.mem_cons, List.not_mem_nil, or_false] at hm hother
    obtain ⟨rfl | rfl, rfl | rfl⟩ := And.intro hm hother
    · rfl
    · exact absurd hlabel (by decide +kernel)
    · exact absurd hlabel (by decide +kernel)
    · rfl

end Blog

/-- The authors are found under their name in any case. -/
theorem EntityCall.modelResolved_run_blog :
    Blog.schema.Installed ∧ (∀ c ∈ [register Blog.author, .clear, register Blog.author],
      c.IsOn Blog.schema) ∧
      EntityRegistry.modelResolved Blog.schema "blog.AUTHOR"
        (run Blog.schema [register Blog.author, .clear, register Blog.author] { number := 0 }) =
          EntityRegistry.modelResolved Blog.schema "blog.AUTHOR" { number := 0 } := by
  have hauthor : Blog.author ∈ Blog.schema.models := List.mem_cons_self
  have hcalls : ∀ c ∈ [register Blog.author, .clear, register Blog.author],
      c.IsOn Blog.schema := by simp [IsOn, hauthor]
  have happ : ∀ app name, Text.pieces '.' "blog.AUTHOR" = [app, name] →
      Text.lower app = app := by
    intro app name hparts
    have hpieces : Text.pieces '.' "blog.AUTHOR" = ["blog", "AUTHOR"] := by decide
    obtain ⟨rfl, -⟩ : "blog" = app ∧ "AUTHOR" = name := by simpa using hpieces.symm.trans hparts
    decide
  exact ⟨Blog.installed, hcalls,
    (modelResolved_run Blog.installed 0 hcalls "blog.AUTHOR").2 (by decide) happ⟩

/-- The authors are found under an app in capitals once they are registered, and not before. -/
theorem EntityCall.modelResolved_run_capitals :
    EntityRegistry.modelResolved Blog.schema "BLOG.Author" { number := 0 } =
        .error (.unknownApp "BLOG") ∧
      EntityRegistry.modelResolved Blog.schema "BLOG.Author"
        (run Blog.schema [register Blog.author] { number := 0 }) = .ok "blog.Author" :=
  ⟨by rfl, by rfl⟩

end RowFilter
