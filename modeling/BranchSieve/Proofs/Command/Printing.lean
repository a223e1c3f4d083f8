import BranchSieve.Execution
import BranchSieve.Proofs.Result
import Mathlib.Data.List.Forall2

/-!
# What printing comes to

A program that prints as it goes prints a text, whatever has been printed already, or a counter
stops it on its way. Which of the two comes true is known from its parts: a loop prints all texts
one behind the other if each of its steps does, and stops with the first step that stops. In the end
it is a matter of the tables that are printed, and only if counters stop the program at all.
-/

namespace BranchSieve

namespace Printing

variable {α β : Type}

/-- The program comes to its end, and it prints a text whatever is printed already. -/
def Prints (program : Printing Unit) (text : String) : Prop :=
  ∀ printed, program.runFrom printed = (.ok (), printed ++ text)

/-- The program stops. -/
def Stops (program : Printing Unit) : Prop :=
  ∀ printed, ∃ text, program.runFrom printed = (.error .stopped, printed ++ text)

/-- The program comes to its end if a condition holds, and it stops otherwise. -/
structure EndsIf (program : Printing Unit) (condition : Prop) : Prop where
  prints : condition → ∃ text, program.Prints text
  stops : ¬ condition → program.Stops

variable {program next : Printing Unit} {text text' : String} {condition condition' : Prop}

theorem runFrom_bind (first : Printing α) (next : α → Printing β) (printed : String) :
    (first >>= next).runFrom printed =
      match first.runFrom printed with
      | (.ok a, printed) => (next a).runFrom printed
      | (.error interrupt, printed) => (.error interrupt, printed) := by
  change ExceptT.bindCont next (first.runFrom printed).1 (first.runFrom printed).2 = _
  rcases first.runFrom printed with ⟨result, printed⟩
  cases result with
  | error interrupt => rfl
  | ok a => rfl

/-- A stage gives its result to what comes behind it. -/
theorem stage_ok_bind (a : α) (next : α → Printing β) : (stage (.ok a) >>= next) = next a := rfl

/-- Nothing runs behind a stage that ends in an error. -/
theorem runFrom_stage_error_bind (error : CommandError) (next : α → Printing β)
    (printed : String) :
    (stage (.error error) >>= next).runFrom printed = (.error error.interrupt, printed) := rfl

/-! ## Programs that print a text -/

theorem prints_pure : Prints (pure ()) "" := by
  intro printed
  rw [String.append_empty]
  rfl

theorem prints_print (text : String) : (print text).Prints text := fun _ => rfl

theorem Prints.bind (here : program.Prints text) (behind : next.Prints text') :
    Prints (program >>= fun _ => next) (text ++ text') := by
  intro printed
  rw [runFrom_bind, here printed, ← String.append_assoc]
  exact behind _

theorem Prints.outcome (prints : program.Prints text) : program.outcome = .success text := by
  rw [Printing.outcome, prints, String.empty_append]
  rfl

/-! ## Programs that stop -/

theorem stops_stop : Stops stop := by
  intro printed
  exact ⟨"", by rw [String.append_empty]; rfl⟩

/-- A counter stops the program in a stage. -/
theorem stops_stage_bind {error : CommandError} (stop : error.interrupt = .stopped)
    (next : α → Printing Unit) : Stops (stage (.error error) >>= next) := by
  intro printed
  exact ⟨"", by rw [runFrom_stage_error_bind, stop, String.append_empty]⟩

theorem Stops.bind (here : program.Stops) (next : Unit → Printing Unit) :
    Stops (program >>= next) := by
  intro printed
  rcases here printed with ⟨text, stopped⟩
  exact ⟨text, by rw [runFrom_bind, stopped]⟩

theorem Prints.bind_stops (here : program.Prints text) (behind : next.Stops) :
    Stops (program >>= fun _ => next) := by
  intro printed
  rcases behind (printed ++ text) with ⟨text', stopped⟩
  exact ⟨text ++ text', by rw [runFrom_bind, here printed, ← String.append_assoc]; exact stopped⟩

theorem Stops.outcome (stops : program.Stops) : ∃ text, program.outcome = ⟨.stopped, text⟩ := by
  rcases stops "" with ⟨text, stopped⟩
  exact ⟨"" ++ text, by rw [Printing.outcome, stopped]⟩

theorem endsIf_pure : EndsIf (pure ()) True :=
  ⟨fun _ => ⟨"", prints_pure⟩, fun no => absurd trivial no⟩

theorem endsIf_print (text : String) : (print text).EndsIf True :=
  ⟨fun _ => ⟨text, prints_print text⟩, fun no => absurd trivial no⟩

theorem EndsIf.congr (ends : program.EndsIf condition) (same : condition ↔ condition') :
    program.EndsIf condition' := by
  rwa [← same]

theorem EndsIf.bind (here : program.EndsIf condition) (behind : next.EndsIf condition') :
    EndsIf (program >>= fun _ => next) (condition ∧ condition') := by
  constructor
  · rintro ⟨holds, holds'⟩
    rcases here.prints holds with ⟨text, prints⟩
    rcases behind.prints holds' with ⟨text', prints'⟩
    exact ⟨text ++ text', prints.bind prints'⟩
  · intro fails
    by_cases holds : condition
    · rcases here.prints holds with ⟨text, prints⟩
      exact prints.bind_stops (behind.stops fun holds' => fails ⟨holds, holds'⟩)
    · exact (here.stops holds).bind _

theorem EndsIf.print_bind (behind : next.EndsIf condition) (text : String) :
    EndsIf (print text >>= fun _ => next) condition :=
  ((endsIf_print text).bind behind).congr (.of_eq (true_and _))

theorem EndsIf.bind_print (here : program.EndsIf condition) (text : String) :
    EndsIf (program >>= fun _ => print text) condition :=
  (here.bind (endsIf_print text)).congr (.of_eq (and_true _))

/-- A loop comes to its end if each of its steps does. -/
theorem endsIf_forM {body : α → Printing Unit} {condition : α → Prop}
    (each : ∀ a, (body a).EndsIf (condition a)) (list : List α) :
    EndsIf (list.forM body) (∀ a ∈ list, condition a) := by
  induction list with
  | nil => exact endsIf_pure.congr (iff_of_true trivial nofun)
  | cons a list ih => exact ((each a).bind ih).congr List.forall_mem_cons.symm

end Printing

open Printing

/-! ## Tables -/

/-- The number behind the last key of a table is not the greatest one, nor beyond it. -/
def Insn.IsCountable : Node → Prop
  | .tableSwitch min _ labels _ => min.toInt + labels.length < Int32.maxValue.toInt
  | _ => True

variable [overflow : Overflow] {key : Int32} {labels : List Label} {node : Node}

/-- The cases of a table are printed with the keys that the table has. -/
theorem prints_cases
    (countable : overflow = .stops → key.toInt + labels.length < Int32.maxValue.toInt) :
    (printCases key labels).Prints (String.ofList ((tableCases key labels).flatMap
      fun (key, label) => writeCase (Text.digitsOfInt key.toInt) label)) := by
  induction labels generalizing key with
  | nil =>
    have goesOn : ¬ Overflow.stopsAt key = true := by
      intro stopped
      obtain ⟨stops, rfl⟩ := Overflow.stopsAt_eq_true_iff.1 stopped
      simp [stops] at countable
    rw [printCases, if_neg goesOn]
    exact prints_pure
  | cons label labels ih =>
    have below : overflow = .stops → key.toInt < Int32.maxValue.toInt := by
      intro stops
      have := countable stops
      omega
    have goesOn : ¬ Overflow.stopsAt key = true := by
      intro stopped
      obtain ⟨stops, rfl⟩ := Overflow.stopsAt_eq_true_iff.1 stopped
      exact absurd (below stops) (Int.lt_irrefl _)
    rw [printCases, if_neg goesOn, tableCases, List.flatMap_cons, String.ofList_append]
    refine (prints_print _).bind (ih ?_)
    intro stops
    have := countable stops
    rw [toInt_add_one (below stops)]
    rw [List.length_cons] at this
    omega

/-- A counter that stops the program does so before all cases of a long table are printed. -/
theorem stops_cases (stops : overflow = .stops)
    (long : Int32.maxValue.toInt ≤ key.toInt + labels.length) : (printCases key labels).Stops := by
  induction labels generalizing key with
  | nil =>
    have greatest : key = Int32.maxValue := by
      have upper := key.toInt_le
      rw [List.length_nil] at long
      exact Int32.toInt_inj.1 (by omega)
    rw [printCases, if_pos (Overflow.stopsAt_eq_true_iff.2 ⟨stops, greatest⟩)]
    exact stops_stop
  | cons label labels ih =>
    rw [printCases]
    by_cases greatest : key = Int32.maxValue
    · rw [if_pos (Overflow.stopsAt_eq_true_iff.2 ⟨stops, greatest⟩)]
      exact stops_stop
    · have below : key.toInt < Int32.maxValue.toInt :=
        Int.lt_iff_le_and_ne.2 ⟨key.toInt_le, fun same => greatest (Int32.toInt_inj.1 same)⟩
      rw [if_neg fun stopped => greatest (Overflow.stopsAt_eq_true_iff.1 stopped).2]
      refine (prints_print _).bind_stops (ih ?_)
      rw [toInt_add_one below]
      rw [List.length_cons] at long
      omega

theorem prints_node (countable : overflow = .stops → node.IsCountable) :
    (printNode node).Prints node.render := by
  cases node with
  | tableSwitch min max labels otherwise =>
    have text : (Insn.tableSwitch min max labels otherwise).render =
        Opcode.tableswitch.mnemonic ++ (String.ofList ((tableCases min labels).flatMap
          fun (key, label) => writeCase (Text.digitsOfInt key.toInt) label) ++
            String.ofList (writeCase "default".toList otherwise)) := by
      simp [Insn.render, Insn.write, writeSwitch, String.ofList_append]
    rw [text]
    exact (prints_print _).bind ((prints_cases countable).bind (prints_print _))
  | _ => exact prints_print _

/-- Printing a node stops at a long table, if counters stop. -/
theorem endsIf_node (node : Node) :
    (printNode node).EndsIf (overflow = .stops → node.IsCountable) := by
  constructor
  · intro countable
    exact ⟨_, prints_node countable⟩
  · intro uncountable
    obtain ⟨stops, long⟩ := Classical.not_imp.1 uncountable
    cases node with
    | tableSwitch min max labels otherwise =>
      have cases : (printCases min labels).Stops := stops_cases stops (Int.not_lt.1 long)
      exact (prints_print _).bind_stops (cases.bind _)
    | _ => exact absurd trivial long

/-! ## Listings and reports -/

/-- The line of a range shows a node, which stands at one of its ends. -/
def Body.Shows (body : Body) (range : IgnoreRange) (node : Node) : Prop :=
  ∃ first last, body.get? range.first = some first ∧ body.get? range.last = some last ∧
    (node = first ∨ node = last)

/-- Printing a method stops at a long table. -/
theorem Method.endsIf_indexed (method : Method) : method.printIndexed.EndsIf
    (∀ node ∈ method.body.nodes.toList, overflow = .stops → node.IsCountable) := by
  have node (entry : Node × Nat) : (printIndexedNode entry.1 entry.2).EndsIf
      (overflow = .stops → entry.1.IsCountable) :=
    ((endsIf_node entry.1).bind_print "\n").print_bind _
  have nodes := endsIf_forM node method.body.nodes.toList.zipIdx
  refine ((nodes.bind_print _).print_bind _).congr ?_
  conv_rhs => rw [← List.zipIdx_map_fst 0 method.body.nodes.toList]
  exact (List.forall_mem_map (P := fun node : Node => overflow = .stops → node.IsCountable)).symm

theorem ClassListing.endsIf_indexed (listing : ClassListing) : listing.printIndexed.EndsIf
    (∀ method ∈ listing.methods, ∀ node ∈ method.body.nodes.toList,
      overflow = .stops → node.IsCountable) := by
  have annotations := endsIf_forM (fun type => endsIf_print s!"annotation {type}\n")
    listing.annotations
  have methods := endsIf_forM Method.endsIf_indexed listing.methods
  refine ((annotations.bind methods).print_bind _).congr ?_
  exact and_iff_right fun _ _ => trivial

/-- Printing a range stops at a long table at one of its ends. -/
theorem Body.endsIf_range (body : Body) (range : IgnoreRange) : (body.printRange range).EndsIf
    (∀ node, body.Shows range node → overflow = .stops → node.IsCountable) := by
  unfold Body.printRange Body.Shows
  cases body.get? range.first with
  | none => exact endsIf_pure.congr (iff_of_true trivial (by simp))
  | some first =>
    cases body.get? range.last with
    | none => exact endsIf_pure.congr (iff_of_true trivial (by simp))
    | some last =>
      have nodes :=
        (endsIf_node first).bind (((endsIf_node last).bind_print "\n").print_bind "  ..  ")
      refine (nodes.print_bind _).congr ?_
      constructor
      · rintro ⟨here, there⟩ node ⟨_, _, ⟨⟩, ⟨⟩, rfl | rfl⟩
        · exact here
        · exact there
      · intro each
        exact ⟨each first ⟨_, _, rfl, rfl, .inl rfl⟩, each last ⟨_, _, rfl, rfl, .inr rfl⟩⟩

theorem Method.endsIf_report (method : Method) (report : MethodReport) :
    (method.printReport report).EndsIf (∀ range ∈ report.ranges, ∀ node,
      method.body.Shows range node → overflow = .stops → node.IsCountable) := by
  unfold Method.printReport
  by_cases nothing : report.ranges = []
  · rw [if_pos nothing, nothing]
    exact endsIf_pure.congr (iff_of_true trivial nofun)
  · rw [if_neg nothing]
    exact (endsIf_forM method.body.endsIf_range report.ranges).print_bind _

end BranchSieve
