import Roboflow.Library.Machine

/-! A producer and a consumer joined by a bounded first-in first-out channel. The producer does its own
work, sends and closes; a call of the consumer is a program that takes from the channel, waiting or not.
However the two are interleaved, nothing that is sent is lost, doubled or reordered, a call finds the
channel at its end only after everything else, and the end is reached. -/
namespace Library

/-! ### The two sides and the channel -/

/-- What a producer does next: some work of its own, an item to send, or the end. -/
inductive Emit (δ τ : Type) where
  | work (next : δ)
  | send (item : τ) (next : δ)
  | close

/-- A call of a consumer. It goes on with an item or with nothing: `recv` waits until there is an item or
the channel is closed and empty, `tryRecv` does not wait. -/
inductive Receiving (τ ρ : Type) where
  | done (result : ρ)
  | recv (next : Option τ → Receiving τ ρ)
  | tryRecv (next : Option τ → Receiving τ ρ)

/-- A consumer between two calls or in one. -/
inductive Consumer (τ κ γ β : Type) where
  | rest (k : κ)
  | busy (call : γ) (program : Receiving τ (κ × β))

structure Pipe (δ τ κ γ β : Type) where
  producer : δ
  queue : List τ
  closed : Bool
  consumer : Consumer τ κ γ β

inductive PipeAct (γ : Type) where
  | produce
  | call (g : γ)
  | consume

variable {δ τ κ γ β α : Type}

/-- A step of either side. A send waits for room, and a step shows the answer of a call that ends. -/
def pipe (capacity : Nat) (emit : δ → Emit δ τ) (program : κ → γ → Receiving τ (κ × β)) :
    Machine (Pipe δ τ κ γ β) (PipeAct γ) (Option (γ × β)) where
  step s
    | .produce =>
      if s.closed then none
      else
        match emit s.producer with
        | .work d => some ({ s with producer := d }, none)
        | .send x d =>
          if s.queue.length < capacity then
            some ({ s with producer := d, queue := s.queue ++ [x] }, none)
          else none
        | .close => some ({ s with closed := true }, none)
    | .call g =>
      match s.consumer with
      | .rest k => some ({ s with consumer := .busy g (program k g) }, none)
      | .busy _ _ => none
    | .consume =>
      match s.consumer with
      | .rest _ => none
      | .busy g (.done (k, b)) => some ({ s with consumer := .rest k }, some (g, b))
      | .busy g (.recv next) =>
        match s.queue with
        | x :: rest => some ({ s with queue := rest, consumer := .busy g (next (some x)) }, none)
        | [] => if s.closed then some ({ s with consumer := .busy g (next none) }, none) else none
      | .busy g (.tryRecv next) =>
        match s.queue with
        | x :: rest => some ({ s with queue := rest, consumer := .busy g (next (some x)) }, none)
        | [] => some ({ s with consumer := .busy g (next none) }, none)

/-- Everything a step can do. -/
inductive PipeStep (capacity : Nat) (emit : δ → Emit δ τ) (program : κ → γ → Receiving τ (κ × β))
    (s : Pipe δ τ κ γ β) : PipeAct γ → Pipe δ τ κ γ β → Option (γ × β) → Prop where
  | work (live : s.closed = false) (next : emit s.producer = .work d) :
      PipeStep capacity emit program s .produce { s with producer := d } none
  | send (live : s.closed = false) (next : emit s.producer = .send x d)
      (room : s.queue.length < capacity) :
      PipeStep capacity emit program s .produce
        { s with producer := d, queue := s.queue ++ [x] } none
  | close (live : s.closed = false) (next : emit s.producer = .close) :
      PipeStep capacity emit program s .produce { s with closed := true } none
  | call (resting : s.consumer = .rest k) :
      PipeStep capacity emit program s (.call g) { s with consumer := .busy g (program k g) } none
  | answer (done : s.consumer = .busy g (.done (k, b))) :
      PipeStep capacity emit program s .consume { s with consumer := .rest k } (some (g, b))
  | recv (waiting : s.consumer = .busy g (.recv next)) (head : s.queue = x :: rest) :
      PipeStep capacity emit program s .consume
        { s with queue := rest, consumer := .busy g (next (some x)) } none
  | atEnd (waiting : s.consumer = .busy g (.recv next)) (empty : s.queue = [])
      (closed : s.closed = true) :
      PipeStep capacity emit program s .consume
        { s with queue := [], consumer := .busy g (next none) } none
  | tryRecv (trying : s.consumer = .busy g (.tryRecv next)) (head : s.queue = x :: rest) :
      PipeStep capacity emit program s .consume
        { s with queue := rest, consumer := .busy g (next (some x)) } none
  | nothing (trying : s.consumer = .busy g (.tryRecv next)) (empty : s.queue = []) :
      PipeStep capacity emit program s .consume
        { s with queue := [], consumer := .busy g (next none) } none

section Steps

variable {capacity : Nat} {emit : δ → Emit δ τ} {program : κ → γ → Receiving τ (κ × β)}
  {s s' : Pipe δ τ κ γ β} {a : PipeAct γ} {out : Option (γ × β)}

theorem pipe_cases (moved : (pipe capacity emit program).step s a = some (s', out)) :
    PipeStep capacity emit program s a s' out := by
  cases a with
  | produce =>
    simp only [pipe] at moved
    cases live : s.closed with
    | true => simp [live] at moved
    | false =>
      rw [if_neg (by simp [live])] at moved
      cases next : emit s.producer with
      | work d =>
        rw [next] at moved
        obtain ⟨rfl, rfl⟩ := Prod.mk.inj (Option.some.inj moved)
        exact .work live next
      | send x d =>
        rw [next] at moved
        dsimp only at moved
        split at moved
        · rename_i room
          obtain ⟨rfl, rfl⟩ := Prod.mk.inj (Option.some.inj moved)
          exact .send live next room
        · cases moved
      | close =>
        rw [next] at moved
        obtain ⟨rfl, rfl⟩ := Prod.mk.inj (Option.some.inj moved)
        exact .close live next
  | call g =>
    simp only [pipe] at moved
    cases resting : s.consumer with
    | rest k =>
      rw [resting] at moved
      obtain ⟨rfl, rfl⟩ := Prod.mk.inj (Option.some.inj moved)
      exact .call resting
    | busy g' p =>
      rw [resting] at moved
      cases moved
  | consume =>
    simp only [pipe] at moved
    cases at_ : s.consumer with
    | rest k =>
      rw [at_] at moved
      cases moved
    | busy g p =>
      rw [at_] at moved
      cases p with
      | done result =>
        obtain ⟨k, b⟩ := result
        obtain ⟨rfl, rfl⟩ := Prod.mk.inj (Option.some.inj moved)
        exact .answer at_
      | recv next =>
        dsimp only at moved
        cases head : s.queue with
        | cons x rest =>
          rw [head] at moved
          obtain ⟨rfl, rfl⟩ := Prod.mk.inj (Option.some.inj moved)
          exact .recv at_ head
        | nil =>
          rw [head] at moved
          dsimp only at moved
          split at moved
          · rename_i closed
            obtain ⟨rfl, rfl⟩ := Prod.mk.inj (Option.some.inj moved)
            exact .atEnd at_ head closed
          · cases moved
      | tryRecv next =>
        dsimp only at moved
        cases head : s.queue with
        | cons x rest =>
          rw [head] at moved
          obtain ⟨rfl, rfl⟩ := Prod.mk.inj (Option.some.inj moved)
          exact .tryRecv at_ head
        | nil =>
          rw [head] at moved
          obtain ⟨rfl, rfl⟩ := Prod.mk.inj (Option.some.inj moved)
          exact .nothing at_ head

end Steps

/-- The answers of the calls that have ended, oldest first. -/
def answersOf : History (Pipe δ τ κ γ β) (PipeAct γ) (Option (γ × β)) → List (γ × β)
  | [] => []
  | e :: older => answersOf older ++ e.out.toList

/-! ### What the two sides keep to -/

/-- A producer that sends its content in order, piece by piece, and closes after it. -/
structure Produces (emit : δ → Emit δ τ) (flat : τ → List α) (unsent : δ → List α) (left : δ → Nat) :
    Prop where
  works : ∀ d d', emit d = .work d' → unsent d = unsent d' ∧ left d' < left d
  sends : ∀ d x d', emit d = .send x d' →
    unsent d = flat x ++ unsent d' ∧ flat x ≠ [] ∧ left d' < left d
  closes : ∀ d, emit d = .close → unsent d = []

/-- What answers give, which are right for a call, and those of a consumer that has found the channel at
its end: once one, and another ever after. -/
structure Answering (κ γ β α : Type) where
  given : β → List α
  held : κ → List α
  finished : κ → Bool
  fits : γ → β → Prop
  last : β
  quiet : β

/-- A program in a call, with what it has taken: it passes on everything in order or keeps it, waits only
when it has nothing, and ends with the last answer when it has waited for nothing. -/
def Proper (how : Answering κ γ β α) (flat : τ → List α) (g : γ) : List α → Receiving τ (κ × β) → Prop
  | got, .done (k, b) => how.finished k = false ∧ got = how.given b ++ how.held k ∧ how.fits g b
  | got, .recv next =>
    got = [] ∧ (∀ x, flat x ≠ [] → Proper how flat g (flat x) (next (some x))) ∧
      ∃ k, next none = .done (k, how.last) ∧ how.finished k = true
  | got, .tryRecv next =>
    (∀ x, flat x ≠ [] → Proper how flat g (got ++ flat x) (next (some x))) ∧
      Proper how flat g got (next none)

structure Consumes (how : Answering κ γ β α) (program : κ → γ → Receiving τ (κ × β)) (flat : τ → List α) :
    Prop where
  proper : ∀ k g, how.finished k = false → Proper how flat g (how.held k) (program k g)
  over_ : ∀ k g, how.finished k = true → program k g = .done (k, how.quiet)
  fits_given : ∀ g b, how.fits g b → how.given b ≠ []
  last_given : how.given how.last = []
  quiet_given : how.given how.quiet = []

/-- What the answers have given. -/
def delivered (how : Answering κ γ β α) (answers : List (γ × β)) : List α :=
  answers.flatMap fun a => how.given a.2

/-- An answer that gives nothing has been given. -/
def Ended (how : Answering κ γ β α) (answers : List (γ × β)) : Prop := ∃ a ∈ answers, how.given a.2 = []

/-- Answers that pass on a content: those that give something fit their calls and give it in order, and
those that give nothing come after all of it, the last answer first. -/
structure Passes (how : Answering κ γ β α) (content : List α) (answers : List (γ × β)) : Prop where
  fits : ∀ a ∈ answers, how.given a.2 ≠ [] → how.fits a.1 a.2
  inOrder : delivered how answers <+: content
  ended : ∀ before a after, answers = before ++ a :: after → how.given a.2 = [] →
    delivered how before = content ∧ (¬Ended how before → a.2 = how.last) ∧
      (Ended how before → a.2 = how.quiet)

section Passing

variable {how : Answering κ γ β α} {content : List α} {given : List (γ × β)}

theorem delivered_append (how : Answering κ γ β α) (one two : List (γ × β)) :
    delivered how (one ++ two) = delivered how one ++ delivered how two :=
  List.flatMap_append

theorem delivered_singleton (how : Answering κ γ β α) (g : γ) (b : β) :
    delivered how [(g, b)] = how.given b := by
  simp [delivered]

theorem ended_append (how : Answering κ γ β α) (given : List (γ × β)) (g : γ) (b : β) :
    Ended how (given ++ [(g, b)]) ↔ Ended how given ∨ how.given b = [] := by
  simp [Ended, or_and_right, exists_or]

theorem passes_nil (how : Answering κ γ β α) (content : List α) : Passes how content [] where
  fits a member := by cases member
  inOrder := List.nil_prefix
  ended before a after split := by
    cases before <;> cases split

/-- One more answer. -/
theorem Passes.snoc (passes : Passes how content given) {g : γ} {b : β}
    (fit : how.given b ≠ [] → how.fits g b) (order : delivered how given ++ how.given b <+: content)
    (atEnd : how.given b = [] → delivered how given = content ∧ (¬Ended how given → b = how.last) ∧
      (Ended how given → b = how.quiet)) :
    Passes how content (given ++ [(g, b)]) where
  fits a member gives := by
    rcases List.mem_append.mp member with older | new
    · exact passes.fits a older gives
    · rw [List.mem_singleton] at new
      subst new
      exact fit gives
  inOrder := by rwa [delivered_append, delivered_singleton]
  ended before a after split gives := by
    rcases List.eq_nil_or_concat after with rfl | ⟨after, x, rfl⟩
    · obtain ⟨rfl, same⟩ := List.append_inj' split rfl
      cases same
      exact atEnd gives
    · rw [List.concat_eq_append, ← List.cons_append, ← List.append_assoc] at split
      exact passes.ended before a after (List.append_inj' split rfl).1 gives

end Passing

/-! ### Every run -/

/-- Where a consumer stands, with what it has taken and not passed on, and whether it has answered that
the channel is at its end. -/
inductive Stage (how : Answering κ γ β α) (flat : τ → List α) (s : Pipe δ τ κ γ β) :
    List α → Prop → Prop where
  | rest (at_ : s.consumer = .rest k) (live : how.finished k = false) :
      Stage how flat s (how.held k) False
  | busy (at_ : s.consumer = .busy g p) (proper : Proper how flat g got p) : Stage how flat s got False
  | last (at_ : s.consumer = .busy g (.done (k, how.last))) (over_ : how.finished k = true)
      (closed : s.closed = true) (empty : s.queue = []) : Stage how flat s [] False
  | quiet (at_ : s.consumer = .rest k ∨ ∃ g, s.consumer = .busy g (.done (k, how.quiet)))
      (over_ : how.finished k = true) (closed : s.closed = true) (empty : s.queue = []) :
      Stage how flat s [] True

/-- What is delivered, held, in the channel and unsent is the content, in this order. -/
structure Flows (how : Answering κ γ β α) (flat : τ → List α) (unsent : δ → List α) (content : List α)
    (given : List (γ × β)) (s : Pipe δ τ κ γ β) (got : List α) (ended : Prop) : Prop where
  stage : Stage how flat s got ended
  flow : delivered how given ++ (got ++ (s.queue.flatMap flat ++ unsent s.producer)) = content
  closed : s.closed = true → unsent s.producer = []
  full : ∀ x ∈ s.queue, flat x ≠ []
  passes : Passes how content given
  ended : Ended how given ↔ ended

section Flow

variable {capacity : Nat} {emit : δ → Emit δ τ} {program : κ → γ → Receiving τ (κ × β)}
  {how : Answering κ γ β α} {flat : τ → List α} {unsent : δ → List α} {left : δ → Nat}
  {s s' : Pipe δ τ κ γ β} {a : PipeAct γ} {out : Option (γ × β)} {given : List (γ × β)}
  {got content : List α} {ended : Prop}

/-- While the producer has not closed, the consumer's stage is its own affair. -/
theorem Stage.of_open (stage : Stage how flat s got ended) (live : s.closed = false)
    (same : s'.consumer = s.consumer) : Stage how flat s' got ended := by
  cases stage with
  | rest at_ live => exact .rest (same.trans at_) live
  | busy at_ proper => exact .busy (same.trans at_) proper
  | last at_ over_ closed empty =>
    rw [live] at closed
    cases closed
  | quiet at_ over_ closed empty =>
    rw [live] at closed
    cases closed

/-- A call that has not come to its end is a proper one. -/
theorem Stage.proper (stage : Stage how flat s got ended) {g : γ} {p : Receiving τ (κ × β)}
    (at_ : s.consumer = .busy g p) (going : ∀ result, p ≠ .done result) :
    Proper how flat g got p ∧ ended = False := by
  cases stage with
  | rest resting _ =>
    rw [at_] at resting
    cases resting
  | busy calling proper =>
    rw [at_] at calling
    cases calling
    exact ⟨proper, rfl⟩
  | last ending _ _ _ =>
    rw [at_] at ending
    cases ending
    exact absurd rfl (going _)
  | quiet ending _ _ _ =>
    rcases ending with resting | ⟨g', ending⟩
    · rw [at_] at resting
      cases resting
    · rw [at_] at ending
      cases ending
      exact absurd rfl (going _)

theorem Flows.produce (flows : Flows how flat unsent content given s got ended)
    (live : s.closed = false) (same : s'.consumer = s.consumer)
    (flow : s'.queue.flatMap flat ++ unsent s'.producer =
      s.queue.flatMap flat ++ unsent s.producer)
    (closed : s'.closed = true → unsent s'.producer = []) (full : ∀ x ∈ s'.queue, flat x ≠ []) :
    Flows how flat unsent content given s' got ended where
  stage := flows.stage.of_open live same
  flow := by rw [flow, flows.flow]
  closed := closed
  full := full
  passes := flows.passes
  ended := flows.ended

/-- The consumer goes on within a call or begins one. -/
theorem Flows.goOn (flows : Flows how flat unsent content given s got ended) {more : List α}
    {ended' : Prop} (stage : Stage how flat s' more ended')
    (flow : more ++ s'.queue.flatMap flat = got ++ s.queue.flatMap flat)
    (producer : s'.producer = s.producer) (closed : s'.closed = s.closed)
    (full : ∀ x ∈ s'.queue, flat x ≠ []) (same : ended ↔ ended') :
    Flows how flat unsent content given s' more ended' where
  stage := stage
  flow := by
    rw [producer, ← List.append_assoc more, flow, List.append_assoc, flows.flow]
  closed shut := by
    rw [producer]
    exact flows.closed (closed.symm.trans shut)
  full := full
  passes := flows.passes
  ended := flows.ended.trans same

/-- A call ends with an answer that gives something of what was held. -/
theorem Flows.answer (flows : Flows how flat unsent content given s got False)
    (consumes : Consumes how program flat) {g : γ} {k : κ} {b : β} (live : how.finished k = false)
    (split : got = how.given b ++ how.held k) (fits : how.fits g b)
    (same : s' = { s with consumer := .rest k }) :
    Flows how flat unsent content (given ++ [(g, b)]) s' (how.held k) False := by
  subst same
  have gives := consumes.fits_given g b fits
  have flow : delivered how (given ++ [(g, b)]) ++
      (how.held k ++ (s.queue.flatMap flat ++ unsent s.producer)) = content := by
    rw [delivered_append, delivered_singleton, List.append_assoc, ← List.append_assoc (how.given b),
      ← split, flows.flow]
  refine ⟨.rest rfl live, flow, flows.closed, flows.full, ?_, ?_⟩
  · refine flows.passes.snoc (fun _ => fits)
      ⟨how.held k ++ (s.queue.flatMap flat ++ unsent s.producer), ?_⟩ fun nothing => absurd nothing gives
    rw [← flow, delivered_append, delivered_singleton]
  · rw [ended_append, flows.ended]
    simp [gives]

/-- A call ends with an answer that gives nothing, when nothing is left. -/
theorem Flows.finish (flows : Flows how flat unsent content given s [] ended) {g : γ} {k : κ} {b : β}
    (over_ : how.finished k = true) (closed : s.closed = true) (empty : s.queue = [])
    (gives : how.given b = []) (last : ¬ended → b = how.last) (quiet : ended → b = how.quiet)
    (same : s' = { s with consumer := .rest k }) :
    Flows how flat unsent content (given ++ [(g, b)]) s' [] True := by
  subst same
  have all : delivered how given = content := by
    have flow := flows.flow
    rw [empty, flows.closed closed] at flow
    simpa using flow
  refine ⟨.quiet (.inl rfl) over_ closed empty, ?_, flows.closed, flows.full, ?_, ?_⟩
  · rw [delivered_append, delivered_singleton, gives, List.append_nil]
    exact flows.flow
  · refine flows.passes.snoc (fun something => absurd gives something) ?_ fun _ => ?_
    · rw [gives, List.append_nil, all]
    · rw [flows.ended]
      exact ⟨all, last, quiet⟩
  · rw [ended_append]
    exact iff_of_true (.inr gives) trivial

/-- Every step keeps the flow. -/
theorem Flows.step (produces : Produces emit flat unsent left) (consumes : Consumes how program flat)
    (flows : Flows how flat unsent content given s got ended)
    (moved : PipeStep capacity emit program s a s' out) :
    ∃ got' ended', Flows how flat unsent content (given ++ out.toList) s' got' ended' := by
  have none_ : given ++ (none : Option (γ × β)).toList = given := List.append_nil _
  cases moved with
  | work live next =>
    obtain ⟨same, -⟩ := produces.works _ _ next
    refine ⟨got, ended, ?_⟩
    rw [none_]
    refine flows.produce live rfl ?_ ?_ flows.full
    · rw [same]
    · intro shut
      rw [live] at shut
      cases shut
  | @send d x live next room =>
    obtain ⟨same, full, -⟩ := produces.sends _ _ _ next
    refine ⟨got, ended, ?_⟩
    rw [none_]
    refine flows.produce live rfl ?_ ?_ ?_
    · simp only [List.flatMap_append, List.flatMap_singleton, List.append_assoc, same]
    · intro shut
      rw [live] at shut
      cases shut
    · intro y member
      rcases List.mem_append.mp member with older | new
      · exact flows.full y older
      · rw [List.mem_singleton.mp new]
        exact full
  | close live next =>
    refine ⟨got, ended, ?_⟩
    rw [none_]
    exact flows.produce live rfl rfl (fun _ => produces.closes _ next) flows.full
  | @call k g resting =>
    rw [none_]
    have stage := flows.stage
    cases stage with
    | rest at_ live =>
      rw [resting] at at_
      cases at_
      exact ⟨_, _, flows.goOn (.busy rfl (consumes.proper k g live)) rfl rfl rfl flows.full Iff.rfl⟩
    | busy at_ _ =>
      rw [resting] at at_
      cases at_
    | last at_ _ _ _ =>
      rw [resting] at at_
      cases at_
    | quiet at_ over_ closed empty =>
      rcases at_ with at_ | ⟨g', at_⟩
      · rw [resting] at at_
        cases at_
        refine ⟨_, _, flows.goOn (.quiet (.inr ⟨g, ?_⟩) over_ closed empty) rfl rfl rfl flows.full Iff.rfl⟩
        rw [consumes.over_ k g over_]
      · rw [resting] at at_
        cases at_
  | @answer g k b done =>
    have stage := flows.stage
    cases stage with
    | rest at_ _ =>
      rw [done] at at_
      cases at_
    | busy at_ proper =>
      rw [done] at at_
      cases at_
      obtain ⟨live, split, fits⟩ := proper
      exact ⟨_, _, flows.answer consumes live split fits rfl⟩
    | last at_ over_ closed empty =>
      rw [done] at at_
      cases at_
      exact ⟨_, _, flows.finish over_ closed empty consumes.last_given (fun _ => rfl)
        (fun impossible => impossible.elim) rfl⟩
    | quiet at_ over_ closed empty =>
      rcases at_ with at_ | ⟨g', at_⟩
      · rw [done] at at_
        cases at_
      · rw [done] at at_
        cases at_
        exact ⟨_, _, flows.finish over_ closed empty consumes.quiet_given
          (fun impossible => absurd trivial impossible) (fun _ => rfl) rfl⟩
  | @recv g next x rest waiting head =>
    rw [none_]
    obtain ⟨⟨nothing, each, -⟩, rfl⟩ := flows.stage.proper waiting fun _ same => by cases same
    have full := flows.full
    rw [head, List.forall_mem_cons] at full
    refine ⟨_, _, flows.goOn (.busy rfl (each x full.1)) ?_ rfl rfl full.2 Iff.rfl⟩
    rw [nothing, head, List.flatMap_cons, List.nil_append]
  | @atEnd g next waiting empty closed =>
    rw [none_]
    obtain ⟨⟨nothing, -, k, same, over_⟩, rfl⟩ := flows.stage.proper waiting fun _ same => by cases same
    refine ⟨_, _, flows.goOn (.last (g := g) (k := k) ?_ over_ closed rfl) ?_ rfl rfl
      (List.forall_mem_nil _) Iff.rfl⟩
    · rw [same]
    · rw [nothing, empty]
  | @tryRecv g next x rest trying head =>
    rw [none_]
    obtain ⟨⟨each, -⟩, rfl⟩ := flows.stage.proper trying fun _ same => by cases same
    have full := flows.full
    rw [head, List.forall_mem_cons] at full
    refine ⟨_, _, flows.goOn (.busy rfl (each x full.1)) ?_ rfl rfl full.2 Iff.rfl⟩
    rw [head, List.flatMap_cons, List.append_assoc]
  | @nothing g next trying empty =>
    rw [none_]
    obtain ⟨⟨-, go⟩, rfl⟩ := flows.stage.proper trying fun _ same => by cases same
    refine ⟨_, _, flows.goOn (.busy rfl go) ?_ rfl rfl (List.forall_mem_nil _) Iff.rfl⟩
    rw [empty]

/-- A pipe before its first step. -/
def Pipe.start (d : δ) (k : κ) : Pipe δ τ κ γ β := ⟨d, [], false, .rest k⟩

/-- However the steps are interleaved, the flow is kept. -/
theorem run_flows (produces : Produces emit flat unsent left) (consumes : Consumes how program flat)
    {d : δ} {k : κ} (live : how.finished k = false) (nothing : how.held k = [])
    {history : History (Pipe δ τ κ γ β) (PipeAct γ) (Option (γ × β))}
    (run : Run (pipe capacity emit program) (.start d k) history s) :
    ∃ got ended, Flows how flat unsent (unsent d) (answersOf history) s got ended := by
  induction run with
  | start =>
    refine ⟨how.held k, False, .rest rfl live, ?_, ?_, List.forall_mem_nil _, passes_nil .., ?_⟩
    · rw [nothing]
      rfl
    · intro shut
      cases shut
    · simp [Ended, answersOf]
  | next before moved ih =>
    obtain ⟨got, ended, flows⟩ := ih
    exact flows.step produces consumes (pipe_cases moved)

/-- Whatever the schedule and the calls, the answers pass on what the producer has to send. -/
theorem run_passes (produces : Produces emit flat unsent left) (consumes : Consumes how program flat)
    {d : δ} {k : κ} (live : how.finished k = false) (nothing : how.held k = [])
    {history : History (Pipe δ τ κ γ β) (PipeAct γ) (Option (γ × β))}
    (run : Run (pipe capacity emit program) (.start d k) history s) :
    Passes how (unsent d) (answersOf history) := by
  obtain ⟨got, ended, flows⟩ := run_flows produces consumes live nothing run
  exact flows.passes

/-! ### Reaching the end -/

variable {history more : History (Pipe δ τ κ γ β) (PipeAct γ) (Option (γ × β))}

theorem answers_append (newer older : History (Pipe δ τ κ γ β) (PipeAct γ) (Option (γ × β))) :
    answersOf (newer ++ older) = answersOf older ++ answersOf newer := by
  induction newer with
  | nil => exact (List.append_nil _).symm
  | cons e newer ih => rw [List.cons_append, answersOf, ih, answersOf, List.append_assoc]

/-- A run that goes on where another ended. -/
theorem run_append {m : Machine σ ι ω} {start s s' : σ} {older newer : History σ ι ω}
    (one : Run m start older s) (two : Run m s newer s') : Run m start (newer ++ older) s' := by
  induction two with
  | start => exact one
  | next before moved ih => exact ih.next moved

theorem Flows.run (produces : Produces emit flat unsent left) (consumes : Consumes how program flat)
    (flows : Flows how flat unsent content given s got ended)
    (run : Run (pipe capacity emit program) s more s') :
    ∃ got' ended', Flows how flat unsent content (given ++ answersOf more) s' got' ended' := by
  induction run with
  | start => exact ⟨got, ended, by rwa [answersOf, List.append_nil]⟩
  | next before moved ih =>
    obtain ⟨got', ended', flows'⟩ := ih
    obtain ⟨got'', ended'', flows''⟩ := flows'.step produces consumes (pipe_cases moved)
    rw [List.append_assoc] at flows''
    exact ⟨got'', ended'', flows''⟩

/-- A producer that finds the channel empty fills it or closes it. -/
theorem producer_fills (produces : Produces emit flat unsent left) (room : 0 < capacity)
    (s : Pipe δ τ κ γ β) (live : s.closed = false) (empty : s.queue = []) :
    ∃ more s', Run (pipe capacity emit program) s more s' ∧ s'.consumer = s.consumer ∧
      answersOf more = [] ∧ (s'.queue ≠ [] ∨ s'.closed = true) := by
  induction n : left s.producer using Nat.strong_induction_on generalizing s with
  | _ n ih =>
    have steps : ∀ s', (pipe capacity emit program).step s .produce = some (s', none) →
        Run (pipe capacity emit program) s [⟨s, .produce, none, s'⟩] s' := fun s' moved =>
      Run.start.next moved
    cases next : emit s.producer with
    | work d =>
      have moved : (pipe capacity emit program).step s .produce =
          some ({ s with producer := d }, none) := by
        simp [pipe, live, next]
      have less := (produces.works _ _ next).2
      obtain ⟨more, s', run, same, silent, ready⟩ :=
        ih (left d) (n ▸ less) { s with producer := d } live empty rfl
      refine ⟨_, s', run_append (steps _ moved) run, same, ?_, ready⟩
      rw [answers_append, silent]
      rfl
    | send x d =>
      have moved : (pipe capacity emit program).step s .produce =
          some ({ s with producer := d, queue := s.queue ++ [x] }, none) := by
        simp [pipe, live, next, empty, room]
      exact ⟨_, _, steps _ moved, rfl, rfl, .inl (by simp)⟩
    | close =>
      have moved : (pipe capacity emit program).step s .produce =
          some ({ s with closed := true }, none) := by
        simp [pipe, live, next]
      exact ⟨_, _, steps _ moved, rfl, rfl, .inr rfl⟩

/-- A state from which a call is answered before anything else is. -/
def Answers (m : Machine (Pipe δ τ κ γ β) (PipeAct γ) (Option (γ × β))) (s : Pipe δ τ κ γ β) (g : γ) :
    Prop :=
  ∃ more s' b, Run m s more s' ∧ answersOf more = [(g, b)]

theorem Answers.of_run {m : Machine (Pipe δ τ κ γ β) (PipeAct γ) (Option (γ × β))} {g : γ}
    (later : Answers m s' g) (run : Run m s more s') (silent : answersOf more = []) : Answers m s g := by
  obtain ⟨rest, t, b, run', shown⟩ := later
  refine ⟨rest ++ more, t, b, run_append run run', ?_⟩
  rw [answers_append, silent, shown]
  rfl

theorem Answers.of_step {m : Machine (Pipe δ τ κ γ β) (PipeAct γ) (Option (γ × β))} {g : γ}
    (later : Answers m s' g) (moved : m.step s a = some (s', none)) : Answers m s g :=
  later.of_run (Run.start.next moved) rfl

/-- A call that is going on is answered. -/
theorem call_ends (program : κ → γ → Receiving τ (κ × β)) (produces : Produces emit flat unsent left)
    (room : 0 < capacity) {g : γ} (p : Receiving τ (κ × β)) (s : Pipe δ τ κ γ β) (at_ : s.consumer = .busy g p) :
    Answers (pipe capacity emit program) s g := by
  induction p generalizing s with
  | done result =>
    obtain ⟨k, b⟩ := result
    have moved : (pipe capacity emit program).step s .consume =
        some ({ s with consumer := .rest k }, some (g, b)) := by
      simp [pipe, at_]
    exact ⟨_, _, b, Run.start.next moved, rfl⟩
  | tryRecv next ih =>
    cases head : s.queue with
    | cons x rest =>
      apply (ih (some x) { s with queue := rest, consumer := .busy g (next (some x)) } rfl).of_step
        (a := .consume)
      simp [pipe, at_, head]
    | nil =>
      apply (ih none { s with queue := [], consumer := .busy g (next none) } rfl).of_step (a := .consume)
      simp [pipe, at_, head]
  | recv next ih =>
    have ready : ∀ s : Pipe δ τ κ γ β, s.consumer = .busy g (.recv next) →
        s.queue ≠ [] ∨ s.closed = true → Answers (pipe capacity emit program) s g := by
      intro s at_ filled
      cases head : s.queue with
      | cons x rest =>
        apply (ih (some x) { s with queue := rest, consumer := .busy g (next (some x)) } rfl).of_step
          (a := .consume)
        simp [pipe, at_, head]
      | nil =>
        have closed := filled.resolve_left fun some_ => some_ head
        apply (ih none { s with queue := [], consumer := .busy g (next none) } rfl).of_step
          (a := .consume)
        simp [pipe, at_, head, closed]
    by_cases filled : s.queue ≠ [] ∨ s.closed = true
    · exact ready s at_ filled
    · obtain ⟨empty, live⟩ := not_or.mp filled
      obtain ⟨more, s', run, same, silent, filled⟩ := producer_fills produces room s
        (Bool.not_eq_true _ ▸ live) (not_not.mp empty)
      exact (ready s' (same.trans at_) filled).of_run run silent

/-- From every state some call is answered next. -/
theorem answer_follows (program : κ → γ → Receiving τ (κ × β)) (produces : Produces emit flat unsent left)
    (room : 0 < capacity) (g : γ) (s : Pipe δ τ κ γ β) : ∃ g', Answers (pipe capacity emit program) s g' := by
  cases at_ : s.consumer with
  | rest k =>
    have going := call_ends program produces room (g := g) (program k g)
      { s with consumer := .busy g (program k g) } rfl
    refine ⟨g, going.of_step (a := .call g) ?_⟩
    simp [pipe, at_]
  | busy g' p => exact ⟨g', call_ends program produces room p s at_⟩

/-- From every state the end is reached. -/
theorem end_follows (produces : Produces emit flat unsent left) (consumes : Consumes how program flat)
    (room : 0 < capacity) (g : γ) (flows : Flows how flat unsent content given s got ended) :
    ∃ more s', Run (pipe capacity emit program) s more s' ∧ Ended how (given ++ answersOf more) := by
  induction n : content.length - (delivered how given).length using Nat.strong_induction_on
    generalizing s given got ended with
  | _ n ih =>
    obtain ⟨g', more, s', b, run, shown⟩ := answer_follows program produces room g s
    obtain ⟨got', ended', flows'⟩ := flows.run produces consumes run
    rw [shown] at flows'
    by_cases nothing : how.given b = []
    · refine ⟨more, s', run, ?_⟩
      rw [shown, ended_append]
      exact .inr nothing
    · have longer : (delivered how given).length < (delivered how (given ++ [(g', b)])).length := by
        rw [delivered_append, delivered_singleton, List.length_append]
        have := List.length_pos_of_ne_nil nothing
        omega
      have bound := flows'.passes.inOrder.length_le
      obtain ⟨more', s'', run', end_⟩ := ih _ (by omega) flows' rfl
      refine ⟨more' ++ more, s'', run_append run run', ?_⟩
      rwa [answers_append, shown, ← List.append_assoc]

/-- Every run can be carried on to the end. -/
theorem run_ends (produces : Produces emit flat unsent left) (consumes : Consumes how program flat)
    (room : 0 < capacity) (g : γ) {d : δ} {k : κ} (live : how.finished k = false)
    (nothing : how.held k = [])
    (run : Run (pipe capacity emit program) (.start d k) history s) :
    ∃ more s', Run (pipe capacity emit program) (.start d k) (more ++ history) s' ∧
      Ended how (answersOf (more ++ history)) := by
  obtain ⟨got, ended, flows⟩ := run_flows produces consumes live nothing run
  obtain ⟨more, s', run', end_⟩ := end_follows produces consumes room g flows
  refine ⟨more, s', run_append run run', ?_⟩
  rwa [answers_append]

end Flow

end Library
