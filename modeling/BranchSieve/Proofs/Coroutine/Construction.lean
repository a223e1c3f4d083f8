import BranchSieve.Proofs.Coroutine.Recognition

/-!
# Constructed state machines

A state machine that is put together from its parts, with any code between them, is recognized with
the ranges that its construction gives. The code in between may copy parts of the skeleton and may
jump anywhere; it only leaves alone the labels that the skeleton places. The scan cannot be misled:
the place that a case of the table leads to is behind one comparison only, and the instruction in
front of that comparison keeps the scan from seeing it any earlier.
-/

namespace BranchSieve.Coroutine

/-- A call that may suspend, with the code in front of it. -/
structure SuspensionPoint where
  /-- The code behind the suspension point before. -/
  filler : List Node
  /-- The last instruction in front of the comparison. -/
  call : Node
  /-- The comparison and the return of the marker, with the markers between them. -/
  comparison : List Node
  /-- The place that a case of the table leads to. -/
  resumption : Label
  /-- The check of the result, with the markers between its instructions. -/
  check : List Node
  /-- The reload of the result. -/
  reload : Node
  /-- The markers behind the reload. -/
  gap : List Node
  /-- The place where both ways meet. -/
  continuation : Label

namespace SuspensionPoint

/-- The nodes from the comparison to the continuation. -/
def tail (point : SuspensionPoint) : List Node :=
  point.comparison ++ .label point.resumption ::
    (point.check ++ point.reload :: (point.gap ++ [.label point.continuation]))

/-- The nodes of a suspension point. -/
def nodes (point : SuspensionPoint) : List Node :=
  point.filler ++ point.call :: point.tail

/-- The nodes other than the places of its two labels. -/
def loose (point : SuspensionPoint) : List Node :=
  point.filler ++ point.call :: (point.comparison ++ point.check ++ point.reload :: point.gap)

/-- The labels that a suspension point places for the skeleton. -/
def names (point : SuspensionPoint) : List Label := [point.resumption, point.continuation]

/-- From the instruction in front of the comparison to the reload, where the suspension point starts
    at an index. -/
def range (point : SuspensionPoint) (start : Nat) : IgnoreRange :=
  ⟨start + point.filler.length,
    start + point.filler.length + 1 + point.comparison.length + 1 + point.check.length⟩

/-- The ranges of suspension points that stand one behind the other. -/
def ranges : List SuspensionPoint → Nat → List IgnoreRange
  | [], _ => []
  | point :: points, start => point.range start :: ranges points (start + point.nodes.length)

/-- The parts consist of the right instructions. -/
structure WellFormed (slot : UInt16) (point : SuspensionPoint) : Prop where
  call : point.call.isMarker = false
  comparison : IsComparison slot point.continuation (point.comparison.filter (!·.isMarker))
  check : IsResultCheck (point.check.filter (!·.isMarker))
  reload : point.reload.opcode? = some .aload
  gap : ∀ node ∈ point.gap, node.isMarker = true

variable {point : SuspensionPoint} {slot : UInt16} {label : Label}

/-- A suspension point places its two labels and what its parts place. -/
theorem label_mem_nodes :
    .label label ∈ point.nodes ↔ .label label ∈ point.loose ∨ label ∈ point.names := by
  simp only [nodes, tail, loose, names, List.mem_append, List.mem_cons, List.not_mem_nil, or_false,
    Insn.label.injEq]
  tauto

theorem length_nodes (point : SuspensionPoint) (start : Nat) :
    start + point.nodes.length = (point.range start).last + 1 + point.gap.length + 1 := by
  simp only [nodes, tail, range, List.length_append, List.length_cons, List.length_nil]
  omega

section Body

variable {body : Body} {front back : List Node}

/-- The instructions behind the one in front of the comparison. -/
theorem instructionsFrom_first (split : body.nodes.toList = front ++ point.nodes ++ back)
    (wellFormed : point.WellFormed slot) :
    body.instructionsFrom ((point.range front.length).first + 1) =
      instructionsOf point.comparison ((point.range front.length).first + 1) ++
        (instructionsOf point.check
            ((point.range front.length).first + 1 + point.comparison.length + 1) ++
          (point.reload, (point.range front.length).last) ::
            instructionsOf back (front.length + point.nodes.length)) := by
  have reload : point.reload.isMarker = false := by simp [Insn.isMarker, wellFormed.reload]
  have split' : body.nodes.toList =
      (front ++ point.filler ++ [point.call]) ++ (point.tail ++ back) := by
    simp [split, nodes]
  have here := Body.instructionsFrom_of_append split'
  have start : (front ++ point.filler ++ [point.call]).length =
      (point.range front.length).first + 1 := by
    simp [range, Nat.add_assoc]
  rw [start] at here
  rw [here, length_nodes]
  simp only [tail, instructionsOf_append, instructionsOf_cons_label,
    instructionsOf_cons_opcode reload, instructionsOf_of_markers wellFormed.gap, List.append_assoc,
    List.cons_append, List.nil_append]
  rfl

/-- The comparison is seen from the instruction in front of it, and it goes on at the first
    instruction behind the suspension point. -/
theorem comparesAt_first (split : body.nodes.toList = front ++ point.nodes ++ back)
    (wellFormed : point.WellFormed slot) (fresh : ∀ name ∈ point.names, .label name ∉ front)
    (loose : ∀ name ∈ point.names, .label name ∉ point.loose)
    (apart : point.resumption ≠ point.continuation) {next : Node} {continuation : Nat}
    {rest : List (Node × Nat)}
    (behind : instructionsOf back (front.length + point.nodes.length) =
      (next, continuation) :: rest) :
    ComparesAt body slot point.resumption (point.range front.length).first continuation := by
  obtain ⟨load, dup, branch, field, throw, pop, check, -⟩ := wellFormed.check
  rw [← map_fst_instructionsOf _
    ((point.range front.length).first + 1 + point.comparison.length + 1)] at check
  obtain ⟨⟨load, start⟩, others, instructions, rfl, -⟩ := List.map_eq_cons_iff.1 check
  have resumed : body.nodes.toList =
      (front ++ point.filler ++ point.call :: point.comparison) ++ .label point.resumption ::
        (point.check ++ point.reload :: (point.gap ++ .label point.continuation :: back)) := by
    simp [split, nodes, tail]
  have continued : body.nodes.toList =
      (front ++ point.filler ++ point.call :: point.comparison ++ .label point.resumption ::
        (point.check ++ point.reload :: point.gap)) ++ .label point.continuation :: back := by
    simp [split, nodes, tail]
  have resumes : body.labelTarget? point.resumption = some start := by
    have outside := loose point.resumption (by simp [names])
    have before := fresh point.resumption (by simp [names])
    simp only [SuspensionPoint.loose, List.mem_append, List.mem_cons, not_or] at outside
    have place : (front ++ point.filler ++ point.call :: point.comparison).length + 1 =
        (point.range front.length).first + 1 + point.comparison.length + 1 := by
      simp only [range, List.length_append, List.length_cons]
      omega
    rw [Body.labelTarget?_of_append resumed (by simp; tauto), instructionsOf_append, place,
      instructions]
    rfl
  have leads : body.labelTarget? point.continuation = some continuation := by
    have outside := loose point.continuation (by simp [names])
    have before := fresh point.continuation (by simp [names])
    have other := apart.symm
    simp only [SuspensionPoint.loose, List.mem_append, List.mem_cons, not_or] at outside
    have place : (front ++ point.filler ++ point.call :: point.comparison ++
        .label point.resumption :: (point.check ++ point.reload :: point.gap)).length + 1 =
          front.length + point.nodes.length := by
      simp only [nodes, tail, List.length_append, List.length_cons, List.length_nil]
      omega
    rw [Body.labelTarget?_of_append continued (by simp; tauto), place, behind]
    rfl
  exact ⟨instructionsOf point.comparison _, (load, start), _, point.continuation, by
    rw [instructionsFrom_first split wellFormed, instructions]; rfl,
    by rw [map_fst_instructionsOf]; exact wellFormed.comparison, resumes, leads⟩

/-- The check in front of the continuation ends with the reload of the result. -/
theorem reloadsBefore_last (split : body.nodes.toList = front ++ point.nodes ++ back)
    (wellFormed : point.WellFormed slot) {next : Node} {continuation : Nat}
    {rest : List (Node × Nat)}
    (behind : instructionsOf back (front.length + point.nodes.length) =
      (next, continuation) :: rest) :
    ReloadsBefore body (point.range front.length).first continuation
      (point.range front.length).last := by
  have whole := instructionsFrom_first split wellFormed
  rw [behind] at whole
  have mem : (next, continuation) ∈
      body.instructionsFrom ((point.range front.length).first + 1) := by
    simp [whole]
  obtain ⟨-, there, opcode⟩ := Body.mem_instructionsFrom.1 mem
  have apart : body.instructionsFrom ((point.range front.length).first + 1) =
      (instructionsOf point.comparison ((point.range front.length).first + 1) ++
        instructionsOf point.check
          ((point.range front.length).first + 1 + point.comparison.length + 1) ++
        [(point.reload, (point.range front.length).last)]) ++ (next, continuation) :: rest := by
    simp [whole]
  refine ⟨⟨next, there, opcode⟩, _, _, point.reload, Body.instructionsBetween_eq_of_append apart,
    ?_, wellFormed.reload⟩
  rw [map_fst_instructionsOf]
  exact wellFormed.check

/-- The scan finds a suspension point and its range, from wherever it starts in front of it. -/
theorem find_first {m : Matcher} (bound : m.bindings.lookup suspendedSlot = some slot)
    (split : m.body.nodes.toList = front ++ point.nodes ++ back)
    (wellFormed : point.WellFormed slot) (fresh : ∀ name ∈ point.names, .label name ∉ front)
    (loose : ∀ name ∈ point.names, .label name ∉ point.loose)
    (apart : point.resumption ≠ point.continuation)
    (follows : ∃ node ∈ back, node.isMarker = false) {first : Nat} (le : first ≤ front.length) :
    ∃ continuation,
      findSuspension? m point.resumption first =
        some ((point.range front.length).first, continuation) ∧
      findResumedEnd? m (point.range front.length).first continuation =
        some (point.range front.length).last := by
  obtain ⟨⟨next, continuation⟩, rest, behind⟩ : ∃ next rest,
      instructionsOf back (front.length + point.nodes.length) = next :: rest := by
    apply List.exists_cons_of_ne_nil
    intro none_left
    obtain ⟨node, mem, opcode⟩ := follows
    have found : node ∈ (instructionsOf back (front.length + point.nodes.length)).map Prod.fst := by
      rw [map_fst_instructionsOf]
      exact List.mem_filter.2 ⟨mem, by simp [opcode]⟩
    simp [none_left] at found
  have sees := comparesAt_first split wellFormed fresh loose apart behind
  refine ⟨continuation, (findSuspension?_eq_some_iff bound).2 ⟨?_, sees, ?_⟩,
    findResumedEnd?_eq_some_iff.2 (reloadsBefore_last split wellFormed behind)⟩
  · exact Nat.le_add_right_of_le le
  · -- Seen from further in front, the comparison would come before the instruction `call`.
    intro earlier other ge lt seen
    have same := (seen.continuation_unique sees).2
    have there : m.body.get? (point.range front.length).first = some point.call := by
      rw [Body.get?, ← Array.getElem?_toList, split]
      simp [nodes, range]
    have mem : (point.call, (point.range front.length).first) ∈
        m.body.instructionsFrom (earlier + 1) :=
      Body.mem_instructionsFrom.2 ⟨lt, there, wellFormed.call⟩
    rw [same] at mem
    exact absurd (Body.mem_instructionsFrom.1 mem).1 (Nat.not_succ_le_self _)

/-- The scan finds suspension points that stand one behind the other. -/
theorem suspensionRanges?_eq_ranges {m : Matcher}
    (bound : m.bindings.lookup suspendedSlot = some slot) {points : List SuspensionPoint}
    (split : m.body.nodes.toList = front ++ points.flatMap nodes ++ back)
    (wellFormed : ∀ point ∈ points, point.WellFormed slot)
    (distinct : (points.flatMap names).Nodup)
    (fresh : ∀ name ∈ points.flatMap names, .label name ∉ front)
    (loose : ∀ name ∈ points.flatMap names, .label name ∉ points.flatMap loose)
    (follows : ∃ node ∈ back, node.isMarker = false) {first : Nat} (le : first ≤ front.length) :
    suspensionRanges? m (points.map resumption) first = some (ranges points front.length) := by
  induction points generalizing front first with
  | nil => rfl
  | cons point points ih =>
    simp only [List.flatMap_cons, List.mem_append, not_or] at split distinct fresh loose wellFormed
    obtain ⟨own, others, apart⟩ := List.nodup_append.1 distinct
    have split' : m.body.nodes.toList = front ++ point.nodes ++ (points.flatMap nodes ++ back) := by
      simp [split]
    have follows' : ∃ node ∈ points.flatMap nodes ++ back, node.isMarker = false := by
      obtain ⟨node, mem, opcode⟩ := follows
      exact ⟨node, List.mem_append_right _ mem, opcode⟩
    obtain ⟨continuation, found, resumed⟩ := find_first bound split'
      (wellFormed point List.mem_cons_self) (fun name mem => fresh name (.inl mem))
      (fun name mem => (loose name (.inl mem)).1) (by simpa [names] using own) follows' le
    -- The labels of the points that are left are placed neither in front nor in this point.
    have fresh' : ∀ name ∈ points.flatMap names, .label name ∉ front ++ point.nodes := by
      intro name mem
      rw [List.mem_append, label_mem_nodes]
      intro h
      rcases h with before | inside | same
      · exact fresh name (.inr mem) before
      · exact (loose name (.inr mem)).1 inside
      · exact apart name same name mem rfl
    have rest := ih (by simp [split])
      (fun other mem => wellFormed other (List.mem_cons_of_mem _ mem))
      others fresh' (fun name mem => (loose name (.inr mem)).2)
      (show (point.range front.length).first + 1 ≤ (front ++ point.nodes).length by
        simp only [List.length_append, length_nodes, range]
        omega)
    rw [List.length_append] at rest
    simp [suspensionRanges?, found, resumed, rest, ranges]

end Body

end SuspensionPoint

/-- A state machine by its parts. Each list of nodes may hold markers between its instructions. -/
structure Layout where
  /-- The slot of the marker that tells suspension. -/
  slot : UInt16
  /-- The fetch of the marker, up to the dispatch. -/
  opening : List Node
  min : Int32
  max : Int32
  /-- The case that starts the code. -/
  first : Label
  /-- The first check of the result without its last instruction. -/
  check : List Node
  pop : Node
  points : List SuspensionPoint
  /-- The code behind the last suspension point. -/
  filler : List Node
  /-- The default of the table. -/
  otherwise : Label
  /-- The fault of a call to resume before the start without its last instruction. -/
  fault : List Node
  throw : Node

namespace Layout

variable (layout : Layout)

/-- The cases of the table. -/
def cases : List Label := layout.first :: layout.points.map SuspensionPoint.resumption

/-- The dispatch over the cases. -/
def switch : Node := .tableSwitch layout.min layout.max layout.cases layout.otherwise

/-- The nodes up to the first suspension point. -/
def head : List Node :=
  layout.opening ++ layout.switch :: (layout.check ++ [layout.pop])

/-- The nodes in front of the default of the table. -/
def front : List Node :=
  layout.head ++ layout.points.flatMap SuspensionPoint.nodes ++ layout.filler

/-- The nodes from the default of the table on. -/
def foot : List Node := .label layout.otherwise :: (layout.fault ++ [layout.throw])

/-- The nodes of the state machine. -/
def nodes : List Node := layout.front ++ layout.foot

/-- The body of the state machine. -/
def body : Body := ⟨layout.nodes.toArray⟩

/-- The labels that the skeleton places. The first case of the table may lead anywhere. -/
def names : List Label := layout.points.flatMap SuspensionPoint.names ++ [layout.otherwise]

/-- The nodes other than the places of these labels. -/
def loose : List Node :=
  layout.head ++ layout.points.flatMap SuspensionPoint.loose ++ layout.filler ++ layout.fault ++
    [layout.throw]

/-- The ranges that are left out of the state machine. -/
def ranges : List IgnoreRange :=
  ⟨layout.front.length, layout.front.length + 1 + layout.fault.length⟩ ::
    ⟨layout.opening.length, layout.opening.length + 1 + layout.check.length⟩ ::
      SuspensionPoint.ranges layout.points layout.head.length

/-- The parts consist of the right instructions, and each label of the skeleton is placed once. -/
structure WellFormed : Prop where
  dispatch : IsDispatch layout.slot layout.cases layout.otherwise
    (layout.opening.filter (!·.isMarker) ++ [layout.switch])
  check : IsResultCheck (layout.check.filter (!·.isMarker) ++ [layout.pop])
  points : ∀ point ∈ layout.points, point.WellFormed layout.slot
  fault : IsResumeFault (layout.fault.filter (!·.isMarker) ++ [layout.throw])
  distinct : layout.names.Nodup
  fresh : ∀ name ∈ layout.names, .label name ∉ layout.loose

variable {layout : Layout}

/-- The labels of the skeleton are placed by the suspension points and by the default only. -/
theorem WellFormed.fresh_points (wellFormed : layout.WellFormed) {name : Label}
    (mem : name ∈ layout.points.flatMap SuspensionPoint.names) :
    .label name ∉ layout.head ∧
      .label name ∉ layout.points.flatMap SuspensionPoint.loose := by
  have outside := wellFormed.fresh name (List.mem_append_left _ mem)
  simp only [loose, List.mem_append, not_or] at outside
  exact outside.1.1.1

/-- The default of the table is placed behind everything else. -/
theorem WellFormed.fresh_otherwise (wellFormed : layout.WellFormed) :
    .label layout.otherwise ∉ layout.front := by
  have outside := wellFormed.fresh layout.otherwise (by simp [names])
  have apart := (List.nodup_append.1 wellFormed.distinct).2.2
  simp only [loose, front, List.mem_append, not_or, List.mem_flatMap, not_exists,
    not_and] at outside ⊢
  obtain ⟨⟨⟨⟨head, points⟩, filler⟩, -⟩, -⟩ := outside
  refine ⟨⟨head, fun point mem placed => ?_⟩, filler⟩
  rcases SuspensionPoint.label_mem_nodes.1 placed with inside | own
  · exact points point mem inside
  · exact apart _ (List.mem_flatMap.2 ⟨point, mem, own⟩) _ (by simp) rfl

/-- A state machine is recognized with its ranges, whatever code stands between its parts. -/
theorem stateMachine?_body (wellFormed : layout.WellFormed) :
    stateMachine? layout.body = some layout.ranges := by
  have switch : layout.switch.isMarker = false := rfl
  have pop : layout.pop.isMarker = false := wellFormed.check.isMarker_eq_false _ (by simp)
  have throw : layout.throw.isMarker = false := wellFormed.fault.isMarker_eq_false _ (by simp)
  obtain ⟨descriptor, this, field, min, max, -⟩ := wellFormed.dispatch
  have scanned : layout.body.nodes.toList =
      layout.head ++ layout.points.flatMap SuspensionPoint.nodes ++
        (layout.filler ++ layout.foot) := by
    simp [body, nodes, front]
  have placed : layout.body.nodes.toList =
      layout.front ++ .label layout.otherwise :: (layout.fault ++ [layout.throw]) := rfl
  have dispatched : layout.body.instructionsFrom 0 =
      instructionsOf layout.opening 0 ++ (layout.switch, layout.opening.length) ::
        (instructionsOf layout.check (layout.opening.length + 1) ++
          (layout.pop, layout.opening.length + 1 + layout.check.length) ::
            layout.body.instructionsFrom layout.head.length) := by
    have behind := Body.instructionsFrom_of_append (scanned.trans (List.append_assoc _ _ _))
    have opened : instructionsOf layout.head 0 =
        instructionsOf layout.opening 0 ++ (layout.switch, layout.opening.length) ::
          (instructionsOf layout.check (layout.opening.length + 1) ++
            [(layout.pop, layout.opening.length + 1 + layout.check.length)]) := by
      simp [head, instructionsOf_append, instructionsOf_cons_opcode switch,
        instructionsOf_cons_opcode pop]
    rw [behind, Body.instructionsFrom, scanned, List.drop_zero, List.append_assoc,
      instructionsOf_append layout.head, opened, Nat.zero_add]
    simp
  have thrown : layout.body.instructionsFrom (layout.front.length + 1) =
      instructionsOf layout.fault (layout.front.length + 1) ++
        [(layout.throw, layout.front.length + 1 + layout.fault.length)] := by
    have faulted : layout.body.nodes.toList =
        (layout.front ++ [.label layout.otherwise]) ++ (layout.fault ++ [layout.throw]) := by
      simp [placed]
    have behind := Body.instructionsFrom_of_append faulted
    rw [List.length_append, List.length_singleton] at behind
    rw [behind, instructionsOf_append, instructionsOf_cons_opcode throw, instructionsOf_nil]
  have suspended := SuspensionPoint.suspensionRanges?_eq_ranges
    (m := ⟨layout.body, .on (layout.opening.length + 1 + layout.check.length),
      [("this", this), (suspendedSlot, layout.slot)]⟩) rfl scanned wellFormed.points
    (List.nodup_append.1 wellFormed.distinct).1
    (fun name mem => (wellFormed.fresh_points mem).1)
    (fun name mem => (wellFormed.fresh_points mem).2)
    ⟨layout.throw, by simp [foot], throw⟩
    (show layout.opening.length + 1 + layout.check.length ≤ layout.head.length by
      simp [head]; omega)
  refine stateMachine?_eq_some_iff.2 ⟨layout.slot, this, layout.cases, layout.otherwise,
    instructionsOf layout.opening 0, layout.switch, layout.opening.length,
    instructionsOf layout.check (layout.opening.length + 1), layout.pop,
    layout.opening.length + 1 + layout.check.length, _, _, _, _, _, _, _, dispatched, ?_, ?_,
    suspended, Body.labelIndex?_of_append placed wellFormed.fresh_otherwise, thrown, ?_, rfl⟩
  · rw [map_fst_instructionsOf]
    exact wellFormed.dispatch
  · rw [map_fst_instructionsOf]
    exact wellFormed.check
  · rw [map_fst_instructionsOf]
    exact wellFormed.fault

/-- Two suspension points. The code in front of the first one copies its comparison and the check of
    the result, and the code in front of the second one jumps to the continuation of the first. -/
def decoyed : Layout where
  slot := 4
  opening :=
    [.line 1 ⟨0⟩,
      .method .invokestatic "kotlin/coroutines/intrinsics/IntrinsicsKt" "getCOROUTINE_SUSPENDED"
        "()Ljava/lang/Object;",
      .var .astore 4, .var .aload 0, .field .getfield "C" "label" "I"]
  min := 0
  max := 2
  first := ⟨0⟩
  check := [.label ⟨0⟩] ++ check
  pop := .simple .pop
  points :=
    [{ filler := comparison ++ check ++ [.simple .pop, .var .aload 1]
       call := .simple .dup
       comparison := comparison
       resumption := ⟨1⟩
       check := check ++ [.simple .pop]
       reload := .var .aload 1
       gap := [.frame "F_SAME"]
       continuation := ⟨2⟩ },
     { filler := [.jump .goto ⟨2⟩]
       call := .simple .dup
       comparison := [.var .aload 4, .jump .ifAcmpne ⟨4⟩, .var .aload 4, .simple .areturn]
       resumption := ⟨3⟩
       check := check ++ [.line 7 ⟨3⟩, .simple .pop]
       reload := .var .aload 1
       gap := []
       continuation := ⟨4⟩ }]
  filler := [.simple .areturn]
  otherwise := ⟨5⟩
  fault :=
    [.type .new "java/lang/IllegalStateException", .simple .dup,
      .ldc (.string "call to 'resume' before 'invoke' with coroutine"),
      .method .invokespecial "java/lang/IllegalStateException" "<init>" "(Ljava/lang/String;)V"]
  throw := .simple .athrow
where
  comparison : List Node :=
    [.var .aload 4, .jump .ifAcmpne ⟨2⟩, .var .aload 4, .simple .areturn]
  check : List Node :=
    [.var .aload 1, .simple .dup, .type .instanceof "kotlin/Result$Failure", .jump .ifeq ⟨6⟩,
      .type .checkcast "kotlin/Result$Failure",
      .field .getfield "kotlin/Result$Failure" "exception" "Ljava/lang/Throwable;",
      .simple .athrow, .label ⟨6⟩]

theorem decoyed_wellFormed : decoyed.WellFormed where
  dispatch := ⟨_, _, _, _, _, rfl, rfl⟩
  check := ⟨_, _, _, _, _, _, rfl, rfl, rfl, rfl, rfl, rfl, rfl⟩
  points := by
    simp only [decoyed, List.mem_cons, List.not_mem_nil, or_false, forall_eq_or_imp, forall_eq]
    exact ⟨
      ⟨rfl, ⟨_, rfl, rfl⟩, ⟨_, _, _, _, _, _, rfl, rfl, rfl, rfl, rfl, rfl, rfl⟩, rfl, by decide⟩,
      ⟨rfl, ⟨_, rfl, rfl⟩, ⟨_, _, _, _, _, _, rfl, rfl, rfl, rfl, rfl, rfl, rfl⟩, rfl, by decide⟩⟩
  fault := ⟨_, _, rfl, rfl, rfl⟩
  distinct := by decide
  fresh := by decide

theorem stateMachine?_decoyed :
    decoyed.WellFormed ∧
      stateMachine? decoyed.body = some [⟨68, 73⟩, ⟨5, 15⟩, ⟨30, 45⟩, ⟨49, 65⟩] :=
  ⟨decoyed_wellFormed, stateMachine?_body decoyed_wellFormed⟩

end Layout

end BranchSieve.Coroutine
