import Mathlib.Data.List.Pairwise
import DslBindings.Proofs.Extension.Conflicts
import DslBindings.Proofs.Sink

/-!
# Accounting for the methods of a class

Each method of a class is written, failed, passed over because of its type variables, or passed over
because of an earlier method with the same name and the same erased leading parameters. The earlier
method keeps its key even if it failed, and then nothing is written for either of them. So a
method is lost just if it comes behind a failed one of its key.
-/

namespace DslBindings

/-- Whether a function was made for a method, or failed to be. -/
def MethodOutcome.isTried : MethodOutcome → Bool
  | .failed _ | .generated _ => true
  | _ => false

namespace Generator

/-- What became of a method. -/
abbrev Account := MethodDescriptor × MethodOutcome

/-- Whether a method gets an extension function unless something stands in its way: it takes a callback
and declares the type variables that it mentions. -/
def isCandidate (g : Generator) (c : ClassDescriptor) (m : MethodDescriptor) : Bool :=
  (m.callback? g.callbacks c).isSome && !m.signature.hasUndeclaredVariable

/--
A method is accounted for by an outcome, given what became of the earlier methods. A clash is with
one of those whose outcome blocks the methods behind it.
-/
inductive IsAccounted (g : Generator) (c : ClassDescriptor) (blocks : MethodOutcome → Bool)
    (earlier : List Account) (m : MethodDescriptor) : MethodOutcome → Prop
  | notEligible (none : m.callback? g.callbacks c = none) : IsAccounted g c blocks earlier m .notEligible
  | unbound (isSome : (m.callback? g.callbacks c).isSome)
      (undeclared : m.signature.hasUndeclaredVariable = true) :
      IsAccounted g c blocks earlier m .unbound
  | clash (isCandidate : g.isCandidate c m = true) {x : Account} (mem : x ∈ earlier)
      (isBlocking : blocks x.2 = true) (key : x.1.leadingKey = m.leadingKey) :
      IsAccounted g c blocks earlier m .clash
  | failed (isCandidate : g.isCandidate c m = true)
      (free : ∀ x ∈ earlier, blocks x.2 = true → x.1.leadingKey ≠ m.leadingKey) {callback : Callback}
      (takes : m.callback? g.callbacks c = some callback) {e : ExtensionError}
      (fails : ExtensionFunction.of? c m callback (g.documentationOf c m) = .error e) :
      IsAccounted g c blocks earlier m (.failed e)
  | generated (isCandidate : g.isCandidate c m = true)
      (free : ∀ x ∈ earlier, blocks x.2 = true → x.1.leadingKey ≠ m.leadingKey) {callback : Callback}
      (takes : m.callback? g.callbacks c = some callback) {f : ExtensionFunction}
      (makes : ExtensionFunction.of? c m callback (g.documentationOf c m) = .ok f) :
      IsAccounted g c blocks earlier m (.generated f)

/-- Each of these methods is accounted for by what became of it. -/
def AreAccounted (g : Generator) (c : ClassDescriptor) (blocks : MethodOutcome → Bool)
    (accounts : List Account) : Prop :=
  ∀ earlier m o later, accounts = earlier ++ (m, o) :: later → IsAccounted g c blocks earlier m o

/-- No candidate comes behind a failed method of its key. -/
def NoneLost (g : Generator) (c : ClassDescriptor) (accounts : List Account) : Prop :=
  accounts.Pairwise fun x y =>
    x.2.error?.isSome → g.isCandidate c y.1 = true → x.1.leadingKey ≠ y.1.leadingKey

/-- The methods of a class with what becomes of them. -/
def accounts (g : Generator) (c : ClassDescriptor) : List Account := c.methods.zip (g.outcomes c)

/-- The keys of the methods for which a function was tried. -/
def AreTaken (earlier : List Account) (taken : List LeadingKey) : Prop :=
  ∀ key, key ∈ taken ↔ ∃ x ∈ earlier, x.2.isTried = true ∧ x.1.leadingKey = key

variable {g : Generator} {c : ClassDescriptor} {taken : List LeadingKey} {earlier l : List Account}
  {m : MethodDescriptor} {o : MethodOutcome}

theorem AreTaken.snoc_of_not_isTried (h : AreTaken earlier taken) (ho : o.isTried = false) :
    AreTaken (earlier ++ [(m, o)]) taken := by
  intro key
  simp [h key, ho, or_and_right, exists_or]

theorem AreTaken.snoc_of_isTried (h : AreTaken earlier taken) (ho : o.isTried = true) :
    AreTaken (earlier ++ [(m, o)]) (m.leadingKey :: taken) := by
  intro key
  rw [List.mem_cons, h key, or_comm, @eq_comm _ key]
  simp [ho, or_and_right, exists_or]

/-- A method gets an outcome that accounts for it, and its key is taken if it was tried. -/
theorem outcomesFrom_cons (h : AreTaken earlier taken) (m : MethodDescriptor)
    (ms : List MethodDescriptor) :
    ∃ o taken', g.outcomesFrom c taken (m :: ms) = o :: g.outcomesFrom c taken' ms
      ∧ IsAccounted g c MethodOutcome.isTried earlier m o ∧ AreTaken (earlier ++ [(m, o)]) taken' := by
  cases hcallback : m.callback? g.callbacks c with
  | none =>
    exact ⟨.notEligible, taken, by simp [outcomesFrom, hcallback], .notEligible hcallback,
      h.snoc_of_not_isTried rfl⟩
  | some callback =>
    cases hundeclared : m.signature.hasUndeclaredVariable with
    | true =>
      exact ⟨.unbound, taken, by simp [outcomesFrom, hcallback, hundeclared],
        .unbound (by rw [hcallback]; rfl) hundeclared, h.snoc_of_not_isTried rfl⟩
    | false =>
      have hcandidate : g.isCandidate c m = true := by simp [isCandidate, hcallback, hundeclared]
      by_cases hkey : m.leadingKey ∈ taken
      · obtain ⟨x, hx, htried, hxm⟩ := (h _).mp hkey
        exact ⟨.clash, taken, by simp [outcomesFrom, hcallback, hundeclared, hkey],
          .clash hcandidate hx htried hxm, h.snoc_of_not_isTried rfl⟩
      · -- The key is taken from now on, whether or not a function is made.
        have hfree : ∀ x ∈ earlier, x.2.isTried = true → x.1.leadingKey ≠ m.leadingKey := by
          intro x hx htried hxm
          exact hkey ((h _).mpr ⟨x, hx, htried, hxm⟩)
        refine ⟨g.generate c m callback, m.leadingKey :: taken,
          by simp [outcomesFrom, hcallback, hundeclared, hkey], ?_, ?_⟩
        · rw [generate]
          cases hmade : ExtensionFunction.of? c m callback (g.documentationOf c m) with
          | error e => exact .failed hcandidate hfree hcallback hmade
          | ok f => exact .generated hcandidate hfree hcallback hmade
        · refine h.snoc_of_isTried ?_
          rw [generate]
          split <;> rfl

/-- The methods of a run are accounted for, behind earlier ones. -/
theorem isAccounted_outcomesFrom {ms : List MethodDescriptor} (before : List Account)
    (h : AreTaken before taken) {later : List Account}
    (hsplit : ms.zip (g.outcomesFrom c taken ms) = earlier ++ (m, o) :: later) :
    IsAccounted g c MethodOutcome.isTried (before ++ earlier) m o := by
  induction ms generalizing before taken earlier with
  | nil => simp at hsplit
  | cons m' ms ih =>
    obtain ⟨o', taken', hcons, haccounted, htaken⟩ := outcomesFrom_cons (g := g) (c := c) h m' ms
    rw [hcons, List.zip_cons_cons] at hsplit
    cases earlier with
    | nil =>
      obtain ⟨⟨⟩, -⟩ := List.cons.inj hsplit
      rwa [List.append_nil]
    | cons x earlier =>
      rw [List.cons_append] at hsplit
      obtain ⟨rfl, htail⟩ := List.cons.inj hsplit
      have hrest : IsAccounted g c MethodOutcome.isTried (before ++ [(m', o')] ++ earlier) m o :=
        ih _ htaken htail
      rwa [List.append_assoc, List.singleton_append] at hrest

theorem length_outcomesFrom (g : Generator) (c : ClassDescriptor) (taken : List LeadingKey)
    (ms : List MethodDescriptor) : (g.outcomesFrom c taken ms).length = ms.length := by
  induction ms generalizing taken with
  | nil => rfl
  | cons m ms ih =>
    rw [outcomesFrom]
    split
    · simp [ih]
    · split
      · simp [ih]
      · split <;> simp [ih]

/-! ### Lost methods -/

theorem pairwise_of_splits {α : Type} {R : α → α → Prop} {l : List α}
    (h : ∀ earlier y later, l = earlier ++ y :: later → ∀ x ∈ earlier, R x y) : l.Pairwise R := by
  induction l using List.reverseRecOn with
  | nil => exact .nil
  | append_singleton l y ih =>
    have hl : l.Pairwise R := by
      refine ih ?_
      intro earlier z later hsplit
      exact h earlier z (later ++ [y]) (by rw [hsplit, List.append_assoc, List.cons_append])
    refine List.pairwise_append.mpr ⟨hl, List.pairwise_singleton R y, ?_⟩
    intro x hx z hz
    rw [List.mem_singleton.mp hz]
    exact h l y [] rfl x hx

theorem rel_of_pairwise {α : Type} {R : α → α → Prop} {earlier later : List α} {x y : α}
    (h : (earlier ++ y :: later).Pairwise R) (hx : x ∈ earlier) : R x y :=
  (List.pairwise_append.mp h).2.2 x hx y List.mem_cons_self

/-- Two methods that are not both tried under one key. -/
def AreTriedApart (x y : Account) : Prop :=
  x.2.isTried = true → y.2.isTried = true → x.1.leadingKey ≠ y.1.leadingKey

instance : Std.Symm AreTriedApart where
  symm _ _ h hy hx := (h hx hy).symm

theorem AreAccounted.pairwise (h : AreAccounted g c MethodOutcome.isTried l) :
    l.Pairwise AreTriedApart := by
  refine pairwise_of_splits ?_
  intro earlier y later hsplit x hx hxtried hytried
  obtain ⟨m, o⟩ := y
  cases h earlier m o later hsplit with
  | notEligible => cases hytried
  | unbound => cases hytried
  | clash => cases hytried
  | failed _ free => exact free x hx hxtried
  | generated _ free => exact free x hx hxtried

/-- A candidate whose key was tried clashes. -/
theorem IsAccounted.eq_clash (h : IsAccounted g c MethodOutcome.isTried earlier m o)
    (hm : g.isCandidate c m = true) {x : Account} (hx : x ∈ earlier) (htried : x.2.isTried = true)
    (hkey : x.1.leadingKey = m.leadingKey) : o = .clash := by
  cases h with
  | notEligible none => simp [isCandidate, none] at hm
  | unbound isSome undeclared => simp [isCandidate, undeclared] at hm
  | clash => rfl
  | failed _ free => exact absurd hkey (free x hx htried)
  | generated _ free => exact absurd hkey (free x hx htried)

theorem isTried_iff {o : MethodOutcome} :
    o.isTried = true ↔ o.isGenerated = true ∨ o.error?.isSome = true := by
  cases o <;> simp [MethodOutcome.isTried, MethodOutcome.isGenerated, MethodOutcome.error?]

theorem not_isGenerated_of_error? {o : MethodOutcome} (h : o.error?.isSome = true) :
    ¬ o.isGenerated = true := by
  cases o <;> simp [MethodOutcome.isGenerated, MethodOutcome.error?] at h ⊢

/-- Every clash is with a method that was written if and only if no method is lost. -/
theorem AreAccounted.isGenerated_iff (h : AreAccounted g c MethodOutcome.isTried l) :
    AreAccounted g c MethodOutcome.isGenerated l ↔ NoneLost g c l := by
  constructor
  · intro hwritten
    refine pairwise_of_splits ?_
    intro earlier y later hsplit x hx hfailed hcandidate hkey
    obtain ⟨m, o⟩ := y
    have hclash : o = .clash :=
      (h earlier m o later hsplit).eq_clash hcandidate hx (isTried_iff.mpr (.inr hfailed)) hkey
    subst hclash
    cases hwritten earlier m .clash later hsplit with
    | @clash _ z hz hgenerated hzkey =>
      -- Both the failed `x` and the written `z` were tried under the key, which only one can be.
      have hne : x ≠ z := by
        rintro rfl
        exact not_isGenerated_of_error? hfailed hgenerated
      have hbefore := (List.pairwise_append.mp (hsplit ▸ h.pairwise)).1
      exact hbefore.forall hx hz hne (isTried_iff.mpr (.inr hfailed))
        (isTried_iff.mpr (.inl hgenerated)) (hkey.trans hzkey.symm)
  · intro hnone earlier m o later hsplit
    have hfree : ∀ x ∈ earlier, (x.2.isTried = true → x.1.leadingKey ≠ m.leadingKey) →
        x.2.isGenerated = true → x.1.leadingKey ≠ m.leadingKey := by
      intro x _ htried hgenerated
      exact htried (isTried_iff.mpr (.inl hgenerated))
    cases h earlier m o later hsplit with
    | notEligible none => exact .notEligible none
    | unbound isSome undeclared => exact .unbound isSome undeclared
    | @clash isCandidate x mem isBlocking key =>
      rcases isTried_iff.mp isBlocking with hgenerated | hfailed
      · exact .clash isCandidate mem hgenerated key
      · rw [hsplit] at hnone
        exact absurd key (rel_of_pairwise hnone mem hfailed isCandidate)
    | failed isCandidate free takes fails =>
      exact .failed isCandidate (fun x hx => hfree x hx (free x hx)) takes fails
    | generated isCandidate free takes makes =>
      exact .generated isCandidate (fun x hx => hfree x hx (free x hx)) takes makes

theorem map_accounts (g : Generator) (hc : c.isGeneric = false) :
    (g.accounts c).map Prod.fst = c.methods ∧ (g.accounts c).map Prod.snd = g.outcomes c := by
  have hlength : (g.outcomes c).length = c.methods.length := by
    rw [outcomes, hc]
    exact length_outcomesFrom g c [] c.methods
  exact ⟨List.map_fst_zip hlength.ge, List.map_snd_zip hlength.le⟩

theorem areAccounted_accounts (g : Generator) (hc : c.isGeneric = false) :
    AreAccounted g c MethodOutcome.isTried (g.accounts c) := by
  intro earlier m o later hsplit
  rw [accounts, outcomes, hc] at hsplit
  exact isAccounted_outcomesFrom [] (by simp [AreTaken]) hsplit

/--
What becomes of the methods of a class with a sink that takes everything. There is one account for each
method, the report and the written text are made of the accounts, and a method that clashes does so with
an earlier one that was written or that failed. It is always one that was written if and only if no
candidate comes behind a failed method of its key.
-/
theorem writeClass_accounts {sink : Sink} (hc : c.isGeneric = false)
    (hs : ∀ offered piece, sink.takes offered piece = true) :
    (g.accounts c).map Prod.fst = c.methods
      ∧ g.writeClass sink c =
        (some
          { className := c.name
            isGeneric := false
            unbound := (g.accounts c).countP (·.2 = .unbound)
            generated := (g.accounts c).countP (·.2.isGenerated)
            failures := (g.accounts c).filterMap (·.2.error?) },
          { sink with
            offered := sink.offered ++ (g.accounts c).filterMap (·.2.block?)
            taken := sink.taken ++ (g.accounts c).filterMap (·.2.block?) })
      ∧ AreAccounted g c MethodOutcome.isTried (g.accounts c)
      ∧ (AreAccounted g c MethodOutcome.isGenerated (g.accounts c) ↔ NoneLost g c (g.accounts c)) := by
  obtain ⟨hfst, hsnd⟩ := g.map_accounts hc
  have haccounted := g.areAccounted_accounts hc
  refine ⟨hfst, ?_, haccounted, haccounted.isGenerated_iff⟩
  rw [writeClass, Sink.writeAll_of_takes hs, classReport, blocks, ← hsnd, hc]
  simp [List.filterMap_map, List.countP_map, List.count_eq_countP]
  exact ⟨rfl, rfl⟩

theorem writeClass_accounts_repeated :
    let c := overloads [.plain "a.A", .plain "a.A"]
    c.isGeneric = false
      ∧ (∀ offered piece, Sink.unlimited.takes offered piece = true)
      ∧ (undocumented.accounts c).map Prod.fst = c.methods
      ∧ undocumented.writeClass .unlimited c =
        (some
          { className := c.name
            isGeneric := false
            unbound := (undocumented.accounts c).countP (·.2 = .unbound)
            generated := (undocumented.accounts c).countP (·.2.isGenerated)
            failures := (undocumented.accounts c).filterMap (·.2.error?) },
          { Sink.unlimited with
            offered := Sink.unlimited.offered ++ (undocumented.accounts c).filterMap (·.2.block?)
            taken := Sink.unlimited.taken ++ (undocumented.accounts c).filterMap (·.2.block?) })
      ∧ AreAccounted undocumented c MethodOutcome.isTried (undocumented.accounts c)
      ∧ (AreAccounted undocumented c MethodOutcome.isGenerated (undocumented.accounts c)
        ↔ NoneLost undocumented c (undocumented.accounts c)) :=
  ⟨by decide, fun _ _ => rfl, writeClass_accounts (by decide) fun _ _ => rfl⟩

/-- A callback interface. -/
def consumer : ClassDescriptor where
  name := "a.Consumer"
  access := ⟨0x0601⟩
  signature := some ⟨[⟨"T", .object⟩], some .object, []⟩
  methods := [⟨"accept", ⟨[], [.typeVariable "T"], .primitive .void⟩, ⟨0x0401⟩⟩]

/-- A class with a method that takes an action and one that takes a consumer. -/
def consuming : ClassDescriptor where
  name := "a.C"
  access := ⟨1⟩
  signature := none
  methods := [actionName, consumer.name].map fun callback =>
    ⟨"foo", ⟨[], [.generic callback [.plain "a.T"]], .primitive .void⟩, ⟨1⟩⟩

/-- A generator whose documentation does not fit the method that takes an action. -/
def misdocumented : Generator where
  documentation := (∅ : DocumentationIndex).insert "a.C.foo(org.gradle.api.Action)" ⟨"", []⟩
  callbacks := .ofClasses [consumer]

/-- The method that takes a consumer is passed over, and no function of its name is written. -/
theorem clash_with_failed :
    misdocumented.outcomes consuming
        = [.failed ⟨"a.C", "foo", ["org.gradle.api.Action"], []⟩, .clash]
      ∧ misdocumented.blocks consuming = []
      ∧ ¬ AreAccounted misdocumented consuming MethodOutcome.isGenerated
        (misdocumented.accounts consuming) := by
  have houtcomes : misdocumented.outcomes consuming
      = [.failed ⟨"a.C", "foo", ["org.gradle.api.Action"], []⟩, .clash] := by decide +kernel
  refine ⟨houtcomes, by decide +kernel, ?_⟩
  intro h
  have hclash := h [_] _ .clash [] (congrArg (consuming.methods.zip ·) houtcomes)
  cases hclash with
  | clash _ mem isBlocking =>
    rw [List.mem_singleton.mp mem] at isBlocking
    cases isBlocking

end Generator

end DslBindings
