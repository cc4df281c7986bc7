import DslBindings.Proofs.Extension.Sweeps

/-!
# One documentation more or less

Two sweeps over the same classes that find different documentation under one key go through the methods
side by side. Which keys are taken hangs on the methods alone, not on whether their functions could be
made, so a method is passed over in both sweeps or in neither, and only what is made of the methods of
that key can differ.
-/

namespace DslBindings

namespace Generator

/-- What a sweep makes of one method of one class. -/
structure Step where
  owner : ClassDescriptor
  method : MethodDescriptor
  outcome : MethodOutcome

/-- The key under which the documentation of the method is looked up. -/
def Step.key (x : Step) : String :=
  Documentation.signatureKey x.owner.name x.method.name x.method.erasedParameters

/-- The methods of these classes with what a sweep makes of them, in their order. A generic class is
passed over. -/
def steps (g : Generator) (classes : List ClassDescriptor) : List Step :=
  classes.flatMap fun c => (g.accounts c).map fun x => ⟨c, x.1, x.2⟩

/-- Two sweeps are at the same method and make the same of it, unless its documentation is the one
under a key. -/
structure Step.IsAlike (key : String) (x y : Step) : Prop where
  owner_eq : x.owner = y.owner
  method_eq : x.method = y.method
  outcome_eq : x.key ≠ key → x.outcome = y.outcome

variable {g g' : Generator} {c : ClassDescriptor} {key : String}

theorem generate_congr {m : MethodDescriptor} (h : g.documentationOf c m = g'.documentationOf c m)
    (callback : Callback) : g.generate c m callback = g'.generate c m callback := by
  rw [generate, generate, h]

/-- Two generators that differ in one documentation go through the methods of a class side by side:
which keys are taken does not depend on documentation. -/
theorem outcomesFrom_isAlike (hcallbacks : g.callbacks = g'.callbacks)
    (hdocs : ∀ k, k ≠ key → g.documentation[k]? = g'.documentation[k]?)
    (taken : List LeadingKey) (ms : List MethodDescriptor) :
    List.Forall₂ (fun x y => Step.IsAlike key ⟨c, x.1, x.2⟩ ⟨c, y.1, y.2⟩)
      (ms.zip (g.outcomesFrom c taken ms)) (ms.zip (g'.outcomesFrom c taken ms)) := by
  induction ms generalizing taken with
  | nil => exact .nil
  | cons m ms ih =>
    rw [outcomesFrom, outcomesFrom, hcallbacks]
    cases m.callback? g'.callbacks c with
    | none => exact .cons ⟨rfl, rfl, fun _ => rfl⟩ (ih taken)
    | some callback =>
      dsimp only
      split
      · exact .cons ⟨rfl, rfl, fun _ => rfl⟩ (ih taken)
      · split
        · exact .cons ⟨rfl, rfl, fun _ => rfl⟩ (ih taken)
        · -- The key is taken in both sweeps, whether or not a function is made here.
          exact .cons ⟨rfl, rfl, fun hkey => generate_congr (hdocs _ hkey) callback⟩ (ih _)

theorem steps_isAlike (hcallbacks : g.callbacks = g'.callbacks)
    (hdocs : ∀ k, k ≠ key → g.documentation[k]? = g'.documentation[k]?)
    (classes : List ClassDescriptor) :
    List.Forall₂ (Step.IsAlike key) (g.steps classes) (g'.steps classes) := by
  induction classes with
  | nil => exact .nil
  | cons c cs ih =>
    rw [steps, steps, List.flatMap_cons, List.flatMap_cons]
    refine List.rel_append ?_ ih
    rw [List.forall₂_map_left_iff, List.forall₂_map_right_iff, accounts, accounts, outcomes, outcomes]
    split
    · simp
    · exact outcomesFrom_isAlike hcallbacks hdocs [] c.methods

/-! ### What the steps are -/

theorem map_snd_accounts (g : Generator) (c : ClassDescriptor) :
    (g.accounts c).map Prod.snd = g.outcomes c := by
  cases hc : c.isGeneric with
  | true => simp [accounts, outcomes, hc]
  | false => exact (g.map_accounts hc).2

/-- A sweep with a sink that takes everything goes through these steps. -/
structure GoesThrough (g : Generator) (classes : List ClassDescriptor) (steps : List Step) : Prop where
  methods_eq : steps.map (fun x => (x.owner, x.method))
    = (classes.filter (!·.isGeneric)).flatMap fun c => c.methods.map (c, ·)
  taken_eq : (g.writeClasses headed classes).2.taken
    = Header.extensions :: steps.filterMap (·.outcome.block?)
  failures_eq : (g.writeClasses headed classes).1.map SweepReport.failures
    = some (steps.filterMap (·.outcome.error?))
  generated_eq : (g.writeClasses headed classes).1.map SweepReport.generated
    = some (steps.countP (·.outcome.isGenerated))
  unbound_eq : (g.writeClasses headed classes).1.map SweepReport.unbound
    = some (steps.countP (·.outcome = .unbound))

theorem map_outcome_steps (g : Generator) (classes : List ClassDescriptor) :
    (g.steps classes).map Step.outcome = classes.flatMap g.outcomes := by
  rw [steps, List.map_flatMap]
  refine List.flatMap_congr fun c _ => ?_
  rw [← map_snd_accounts, List.map_map]
  rfl

theorem map_method_steps (g : Generator) (classes : List ClassDescriptor) :
    (g.steps classes).map (fun x => (x.owner, x.method))
      = (classes.filter (!·.isGeneric)).flatMap fun c => c.methods.map (c, ·) := by
  induction classes with
  | nil => rfl
  | cons c cs ih =>
    rw [steps, List.flatMap_cons, List.map_append, ← steps, ih, List.map_map]
    cases hc : c.isGeneric with
    | true => simp [accounts, outcomes, hc]
    | false =>
      have hmethods := (g.map_accounts hc).1
      rw [List.filter_cons_of_pos (by simp [hc]), List.flatMap_cons, ← hmethods, List.map_map]
      rfl

theorem filterMap_steps {α : Type} (g : Generator) (classes : List ClassDescriptor)
    (f : MethodOutcome → Option α) :
    (g.steps classes).filterMap (fun x => f x.outcome)
      = classes.flatMap fun c => (g.outcomes c).filterMap f := by
  rw [← List.filterMap_flatMap, ← map_outcome_steps, List.filterMap_map]
  rfl

theorem countP_steps (g : Generator) (classes : List ClassDescriptor) (p : MethodOutcome → Bool) :
    (g.steps classes).countP (fun x => p x.outcome)
      = (classes.map fun c => (g.outcomes c).countP p).sum := by
  have hsum := List.countP_flatMap (p := p) (l := classes) (f := g.outcomes)
  rw [← map_outcome_steps, List.countP_map] at hsum
  exact hsum

theorem goesThrough_steps (g : Generator) (classes : List ClassDescriptor) :
    g.GoesThrough classes (g.steps classes) := by
  constructor
  · exact g.map_method_steps classes
  · rw [writeClasses_headed, filterMap_steps]
    rfl
  · rw [writeClasses_headed, filterMap_steps]
    rfl
  · rw [writeClasses_headed, countP_steps]
    rfl
  · rw [writeClasses_headed, countP_steps g classes fun o => decide (o = .unbound)]
    rfl

theorem of?_eq_error {m : MethodDescriptor} {callback : Callback} {d : Documentation}
    (h : d.parameterNames.length ≠ m.signature.parameters.length) :
    ExtensionFunction.of? c m callback (some d)
      = .error ⟨c.name, m.name, m.erasedParameters, d.parameterNames⟩ := by
  simp [ExtensionFunction.of?, h]

/-- A function is tried for a method behind these ones: it is a candidate, and the first one of its
key. -/
def IsReached (g : Generator) (c : ClassDescriptor) (earlier : List MethodDescriptor)
    (m : MethodDescriptor) : Prop :=
  g.isCandidate c m = true
    ∧ ∀ m' ∈ earlier, g.isCandidate c m' = true → m'.leadingKey ≠ m.leadingKey

theorem AreAccounted.isCandidate {l : List Account} (h : AreAccounted g c MethodOutcome.isTried l)
    {x : Account} (hx : x ∈ l) (htried : x.2.isTried = true) : g.isCandidate c x.1 = true := by
  obtain ⟨earlier, later, hsplit⟩ := List.append_of_mem hx
  obtain ⟨m, o⟩ := x
  cases h earlier m o later hsplit with
  | notEligible => cases htried
  | unbound => cases htried
  | clash isCandidate => exact isCandidate
  | failed isCandidate => exact isCandidate
  | generated isCandidate => exact isCandidate

/-- A method whose documentation does not fit yields no text, and one failure if it is reached. -/
theorem outcome_of_misfit {d : Documentation} {earlier later : List Account} {m : MethodDescriptor}
    {o : MethodOutcome} (hsplit : g.accounts c = earlier ++ (m, o) :: later)
    (hd : g.documentationOf c m = some d)
    (hmisfit : d.parameterNames.length ≠ m.signature.parameters.length) :
    o.block? = none ∧ (g.IsReached c (earlier.map Prod.fst) m →
      o = .failed ⟨c.name, m.name, m.erasedParameters, d.parameterNames⟩) := by
  have hc : c.isGeneric = false := by
    by_contra hgeneric
    rw [accounts, outcomes, if_pos (by simpa using hgeneric)] at hsplit
    simp at hsplit
  have haccounted := g.areAccounted_accounts hc
  cases haccounted earlier m o later hsplit with
  | notEligible none =>
    refine ⟨rfl, ?_⟩
    rintro ⟨hcandidate, -⟩
    simp [isCandidate, none] at hcandidate
  | unbound isSome undeclared =>
    refine ⟨rfl, ?_⟩
    rintro ⟨hcandidate, -⟩
    simp [isCandidate, undeclared] at hcandidate
  | @clash _ x mem isBlocking key =>
    refine ⟨rfl, ?_⟩
    rintro ⟨-, hfirst⟩
    have hx : x ∈ g.accounts c := hsplit ▸ List.mem_append_left _ mem
    exact absurd key (hfirst x.1 (List.mem_map_of_mem mem) (haccounted.isCandidate hx isBlocking))
  | failed isCandidate free takes fails =>
    rw [hd, of?_eq_error hmisfit] at fails
    cases fails
    exact ⟨rfl, fun _ => rfl⟩
  | generated isCandidate free takes makes =>
    rw [hd, of?_eq_error hmisfit] at makes
    cases makes

/--
Two sweeps over the same classes with documentation that differs under one key only go through the same
methods side by side, and make the same of each whose documentation is not the one under the key. A
method of the key whose documentation does not fit yields no text, and one failure if it is reached.
-/
theorem sweeps_differ_only_at_key (hcallbacks : g.callbacks = g'.callbacks)
    (hdocs : ∀ k, k ≠ key → g.documentation[k]? = g'.documentation[k]?)
    (classes : List ClassDescriptor) :
    g.GoesThrough classes (g.steps classes) ∧ g'.GoesThrough classes (g'.steps classes)
    ∧ List.Forall₂ (Step.IsAlike key) (g.steps classes) (g'.steps classes)
    ∧ ∀ h ∈ [g, g'], ∀ d, h.documentation[key]? = some d →
      ∀ c earlier m o later, h.accounts c = earlier ++ (m, o) :: later → (Step.mk c m o).key = key →
        d.parameterNames.length ≠ m.signature.parameters.length →
        o.block? = none ∧ (h.IsReached c (earlier.map Prod.fst) m →
          o = .failed ⟨c.name, m.name, m.erasedParameters, d.parameterNames⟩) := by
  refine ⟨g.goesThrough_steps classes, g'.goesThrough_steps classes,
    steps_isAlike hcallbacks hdocs classes, ?_⟩
  intro h _ d hd c earlier m o later hsplit hkey hmisfit
  subst hkey
  exact outcome_of_misfit hsplit hd hmisfit

/-- The generator of `misdocumented` without its documentation. -/
def uncommented : Generator := { misdocumented with documentation := ∅ }

theorem sweeps_differ_only_at_key_foo :
    let key := "a.C.foo(org.gradle.api.Action)"
    let classes := [consuming, overloads [.plain "a.A"]]
    let foo : MethodDescriptor :=
      ⟨"foo", ⟨[], [.generic actionName [.plain "a.T"]], .primitive .void⟩, ⟨1⟩⟩
    misdocumented.callbacks = uncommented.callbacks
      ∧ (∀ k, k ≠ key → misdocumented.documentation[k]? = uncommented.documentation[k]?)
      ∧ List.Forall₂ (Step.IsAlike key) (misdocumented.steps classes) (uncommented.steps classes)
      ∧ misdocumented.documentation[key]? = some ⟨"", []⟩
      ∧ ∃ o later, misdocumented.accounts consuming = (foo, o) :: later
        ∧ o = .failed ⟨"a.C", "foo", ["org.gradle.api.Action"], []⟩ := by
  intro key classes foo
  have hcallbacks : misdocumented.callbacks = uncommented.callbacks := rfl
  have hdocs : ∀ k, k ≠ key → misdocumented.documentation[k]? = uncommented.documentation[k]? := by
    intro k hk
    simp [misdocumented, uncommented, hk.symm, key]
  have hd : misdocumented.documentation[key]? = some ⟨"", []⟩ := by simp [misdocumented, key]
  obtain ⟨-, -, halike, hmisfit⟩ := sweeps_differ_only_at_key hcallbacks hdocs classes
  refine ⟨hcallbacks, hdocs, halike, hd, ?_⟩
  obtain ⟨⟨m, o⟩, later, hsplit⟩ := List.exists_cons_of_ne_nil
    (by decide +kernel : misdocumented.accounts consuming ≠ [])
  have hm : m = foo := by
    have hmethods := congrArg (·.head?.map Prod.fst) hsplit
    exact (Option.some.inj hmethods).symm
  subst hm
  have hkey : Documentation.signatureKey "a.C" "foo" foo.erasedParameters = key := by decide +kernel
  have hreached : misdocumented.IsReached consuming [] foo :=
    ⟨by decide +kernel, List.forall_mem_nil _⟩
  exact ⟨o, later, hsplit, (hmisfit misdocumented List.mem_cons_self _ hd consuming [] foo o later
    hsplit hkey (by decide)).2 hreached⟩

end Generator

end DslBindings
