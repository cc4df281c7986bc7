import Mathlib.Algebra.GroupWithZero.Nat
import DslBindings.Proofs.Extension.Closedness

/-!
# What a sweep leaves in its sink

A sweep offers the functions of its classes to the sink, class by class, and ends at the first one that
is refused. So it amounts to offering one list of pieces: what a class adds to the list hangs on nothing
that was written before, and what the sink took at any time is a beginning of the list.
-/

namespace DslBindings

/-- The text of functions as they stand in a file, one behind the other. -/
def ExtensionFunction.textOf (fs : List ExtensionFunction) : String :=
  String.join (fs.map ExtensionFunction.block)

theorem SweepReport.foldl_add (reports : List ClassReport) (s : SweepReport) :
    reports.foldl add s =
      { classes := s.classes + reports.length
        genericClasses := s.genericClasses + reports.countP (·.isGeneric)
        unbound := s.unbound + (reports.map (·.unbound)).sum
        generated := s.generated + (reports.map (·.generated)).sum
        failures := s.failures ++ reports.flatMap (·.failures) } := by
  induction reports generalizing s with
  | nil => simp
  | cons r rs ih =>
    rw [List.foldl_cons, ih, add]
    simp only [List.length_cons, List.countP_cons, List.map_cons, List.sum_cons, List.flatMap_cons,
      SweepReport.mk.injEq, List.append_assoc, and_true]
    omega

theorem ExtensionFunction.textOf_flatMap {α : Type} (l : List α) (f : α → List ExtensionFunction) :
    textOf (l.flatMap f) = String.join (l.map fun a => textOf (f a)) := by
  induction l with
  | nil => rfl
  | cons a l ih =>
    rw [List.map_cons, String.join_cons, ← ih, List.flatMap_cons, textOf, List.map_append,
      String.join_append]
    rfl

namespace Generator

variable {g : Generator} {classes : List ClassDescriptor} {sink left : Sink}

/-- The sink with nothing but the header of the file in it. -/
def headed : Sink := (writeHeader .unlimited).2

/-- Classes are written one by one, and the first one of which the sink refuses something leaves it so. -/
inductive FirstRefusal (g : Generator) : Sink → List ClassDescriptor → Sink → Prop
  | here {sink left : Sink} {c : ClassDescriptor} {cs : List ClassDescriptor}
      (refused : g.writeClass sink c = (none, left)) : FirstRefusal g sink (c :: cs) left
  | later {sink next left : Sink} {c : ClassDescriptor} {cs : List ClassDescriptor}
      {report : ClassReport} (written : g.writeClass sink c = (some report, next))
      (refusal : FirstRefusal g next cs left) : FirstRefusal g sink (c :: cs) left

/-- A sweep offers the functions of all its classes in one row. -/
theorem writeClassesFrom_eq (g : Generator) (report : SweepReport) (sink : Sink)
    (classes : List ClassDescriptor) :
    g.writeClassesFrom report sink classes =
      match sink.writeAll (classes.flatMap g.blocks) with
      | (true, sink') => (some ((classes.map g.classReport).foldl SweepReport.add report), sink')
      | (false, sink') => (none, sink') := by
  induction classes generalizing report sink with
  | nil => rfl
  | cons c cs ih =>
    rw [writeClassesFrom, List.flatMap_cons, Sink.writeAll_append, writeClass]
    cases sink.writeAll (g.blocks c) with
    | mk ok sink' =>
      cases ok with
      | true => exact ih _ _
      | false => rfl

theorem writeAll_of_writeClass {c : ClassDescriptor} {report : Option ClassReport}
    (h : g.writeClass sink c = (report, left)) : sink.writeAll (g.blocks c) = (report.isSome, left) := by
  rw [writeClass] at h
  split at h
  · cases h
    assumption
  · cases h
    assumption

/-- Classes that are written one by one offer the same row up to the first refusal. -/
theorem FirstRefusal.writeAll_eq (h : g.FirstRefusal sink classes left) :
    sink.writeAll (classes.flatMap g.blocks) = (false, left) := by
  induction h with
  | here refused =>
    rw [List.flatMap_cons, Sink.writeAll_append, writeAll_of_writeClass refused]
    rfl
  | later written _ ih =>
    rw [List.flatMap_cons, Sink.writeAll_append, writeAll_of_writeClass written]
    exact ih

theorem writeAll_eq_of_refused
    (h : g.writeClasses sink classes = (none, left) ∨ g.FirstRefusal sink classes left) :
    sink.writeAll (classes.flatMap g.blocks) = (false, left) := by
  rcases h with h | h
  · rw [writeClasses, writeClassesFrom_eq] at h
    split at h
    · cases h
    · rename_i hwrite
      cases h
      exact hwrite
  · exact h.writeAll_eq

theorem flatMap_blocks (g : Generator) (classes : List ClassDescriptor) :
    classes.flatMap g.blocks = (classes.flatMap g.functions).map ExtensionFunction.block := by
  rw [List.map_flatMap]
  exact List.flatMap_congr fun c _ => blocks_eq

/-- What a sink holds that took the header of the file and then these functions. -/
theorem text_eq {fs : List ExtensionFunction}
    (h : sink.taken = Header.extensions :: fs.map ExtensionFunction.block) :
    sink.text = Header.extensions ++ ExtensionFunction.textOf fs := by
  rw [Sink.text, h, ExtensionFunction.textOf]
  simp

/-- A class that is written alone. -/
theorem writeClass_headed (g : Generator) (c : ClassDescriptor) :
    g.writeClass headed c =
      (some (g.classReport c),
        { headed with
          offered := Header.extensions :: g.blocks c
          taken := Header.extensions :: g.blocks c }) := by
  rw [writeClass, Sink.writeAll_of_takes (fun _ _ => rfl)]
  rfl

theorem writeClasses_headed (g : Generator) (classes : List ClassDescriptor) :
    g.writeClasses headed classes =
      (some
        { classes := classes.length
          genericClasses := classes.countP fun c => (g.classReport c).isGeneric
          unbound := (classes.map fun c => (g.classReport c).unbound).sum
          generated := (classes.map fun c => (g.classReport c).generated).sum
          failures := classes.flatMap fun c => (g.classReport c).failures },
        { headed with
          offered := Header.extensions :: classes.flatMap g.blocks
          taken := Header.extensions :: classes.flatMap g.blocks }) := by
  rw [writeClasses, writeClassesFrom_eq, Sink.writeAll_of_takes (fun _ _ => rfl)]
  refine Prod.ext ?_ rfl
  simp [SweepReport.foldl_add, List.countP_map, List.flatMap_map, Function.comp_def]

/-- A sink that refused something holds the functions in front of it. -/
theorem exists_text_of_refused (hempty : sink.taken = []) (hheader : (writeHeader sink).1 = true)
    (h : (writeHeader sink).2.writeAll (classes.flatMap g.blocks) = (false, left)) :
    ∃ k < (classes.flatMap g.functions).length,
      left.text = Header.extensions ++ ExtensionFunction.textOf ((classes.flatMap g.functions).take k) := by
  have htaken : (writeHeader sink).2.taken = [Header.extensions] := by
    rw [writeHeader, Sink.write] at hheader ⊢
    split
    · simp [hempty]
    · rename_i hrefused
      rw [if_neg hrefused] at hheader
      cases hheader
  obtain ⟨hok, -⟩ | ⟨-, k, hk, hleft⟩ :=
    (writeHeader sink).2.writeAll_cases (classes.flatMap g.blocks)
  · rw [h] at hok
    cases hok
  · rw [flatMap_blocks, List.length_map] at hk
    refine ⟨k, hk, text_eq ?_⟩
    rw [h, htaken, flatMap_blocks, ← List.map_take] at hleft
    exact hleft

/-- A sink that takes the header and one function, and no more. -/
def narrow : Sink := { takes := fun offered _ => offered.length < 2 }

end Generator

end DslBindings
