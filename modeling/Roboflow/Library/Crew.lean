import Roboflow.Library.Machine

/-! Actors that one caller starts, sends messages to and joins. Each has a mailbox of its own and
takes its messages one at a time, in the order they were sent, until one of them ends it. However
the actors and the caller are interleaved, an actor that has ended has ended with what it makes of
all that was sent to it. -/
namespace Library

variable {ι κ σ μ ρ : Type}

/-! ### Actors -/

/-- An actor may end before its first message, at a message, or when its mailbox is empty and no
more can be sent. -/
structure Actor (σ μ ρ : Type) where
  start : Except ρ σ
  step : σ → μ → Except ρ σ
  closed : σ → ρ

namespace Actor

/-- The actor once it has taken these messages; those after its end are not looked at. -/
def after (actor : Actor σ μ ρ) (messages : List μ) : Except ρ σ :=
  messages.foldl (fun reached message => reached.bind (actor.step · message)) actor.start

def result (actor : Actor σ μ ρ) (messages : List μ) : ρ :=
  match actor.after messages with
  | .ok state => actor.closed state
  | .error result => result

variable {actor : Actor σ μ ρ} {messages : List μ} {message : μ} {state : σ} {result : ρ}

theorem after_concat (actor : Actor σ μ ρ) (messages : List μ) (message : μ) :
    actor.after (messages ++ [message]) = (actor.after messages).bind (actor.step · message) := by
  rw [after, List.foldl_append]
  rfl

theorem after_concat_ok (reached : actor.after messages = .ok state) :
    actor.after (messages ++ [message]) = actor.step state message := by
  rw [after_concat, reached]
  rfl

theorem after_concat_error (ended : actor.after messages = .error result) :
    actor.after (messages ++ [message]) = .error result := by
  rw [after_concat, ended]
  rfl

theorem after_append_error (ended : actor.after messages = .error result) (more : List μ) :
    actor.after (messages ++ more) = .error result := by
  induction more using List.reverseRecOn with
  | nil => rwa [List.append_nil]
  | append_singleton more message ih => rw [← List.append_assoc, after_concat_error ih]

theorem result_of_error (ended : actor.after messages = .error result) :
    actor.result messages = result := by
  rw [Actor.result, ended]

theorem result_of_ok (reached : actor.after messages = .ok state) :
    actor.result messages = actor.closed state := by
  rw [Actor.result, reached]

end Actor

/-! ### One member -/

inductive Progress (σ ρ : Type) where
  | starting
  | looping (state : σ)
  | ended (result : ρ)

structure Member (κ σ μ ρ : Type) where
  config : κ
  progress : Progress σ ρ
  mailbox : List μ

namespace Member

def new (config : κ) : Member κ σ μ ρ := ⟨config, .starting, []⟩

def hasEnded (member : Member κ σ μ ρ) : Bool :=
  match member.progress with
  | .ended _ => true
  | _ => false

/-- The mailbox of an actor that has ended is gone. -/
def deliver (member : Member κ σ μ ρ) (message : μ) : Member κ σ μ ρ :=
  if member.hasEnded then member else { member with mailbox := member.mailbox ++ [message] }

/-- The next step of a member; it waits at an empty mailbox as long as more can be sent. -/
def turn (actor : Actor σ μ ρ) (dropped : Bool) (member : Member κ σ μ ρ) :
    Option (Member κ σ μ ρ) :=
  match member.progress, member.mailbox with
  | .starting, _ =>
    match actor.start with
    | .ok state => some { member with progress := .looping state }
    | .error result => some { member with progress := .ended result }
  | .looping state, message :: rest =>
    match actor.step state message with
    | .ok next => some { member with progress := .looping next, mailbox := rest }
    | .error result => some { member with progress := .ended result, mailbox := rest }
  | .looping state, [] =>
    if dropped then some { member with progress := .ended (actor.closed state) } else none
  | .ended _, _ => none

/-- Where a member is in what was sent to it. -/
def Follows (actor : Actor σ μ ρ) (sent : List μ) (dropped : Bool) (member : Member κ σ μ ρ) :
    Prop :=
  match member.progress with
  | .starting => member.mailbox = sent
  | .looping state => ∃ taken, sent = taken ++ member.mailbox ∧ actor.after taken = .ok state
  | .ended result => actor.after sent = .error result ∨
      dropped = true ∧ ∃ state, actor.after sent = .ok state ∧ result = actor.closed state

variable {actor : Actor σ μ ρ} {sent : List μ} {dropped : Bool} {member member' : Member κ σ μ ρ}

theorem follows_new (actor : Actor σ μ ρ) (config : κ) (dropped : Bool) :
    (Member.new config : Member κ σ μ ρ).Follows actor [] dropped := rfl

theorem Follows.deliver (follows : member.Follows actor sent false) (message : μ) :
    (member.deliver message).Follows actor (sent ++ [message]) false := by
  obtain ⟨config, progress, mailbox⟩ := member
  cases progress with
  | starting => exact congrArg (· ++ [message]) follows
  | looping state =>
    obtain ⟨taken, split, reached⟩ := follows
    exact ⟨taken, by simp [Member.deliver, hasEnded, split], reached⟩
  | ended result =>
    rcases follows with ended | ⟨never, -⟩
    · exact .inl (Actor.after_concat_error ended)
    · cases never

theorem Follows.turn (follows : member.Follows actor sent dropped)
    (moved : member.turn actor dropped = some member') : member'.Follows actor sent dropped := by
  obtain ⟨config, progress, mailbox⟩ := member
  cases progress with
  | starting =>
    have waiting : mailbox = sent := follows
    simp only [Member.turn] at moved
    split at moved
    · rename_i state started
      obtain rfl := Option.some.inj moved
      exact ⟨[], waiting.symm, started⟩
    · rename_i result ended
      obtain rfl := Option.some.inj moved
      have before : actor.after [] = .error result := ended
      exact .inl (Actor.after_append_error before sent)
  | looping state =>
    obtain ⟨taken, split_, reached⟩ := follows
    cases mailbox with
    | nil =>
      simp only [Member.turn] at moved
      split at moved
      · rename_i gone
        obtain rfl := Option.some.inj moved
        rw [List.append_nil] at split_
        exact .inr ⟨gone, state, by rw [split_, reached], rfl⟩
      · cases moved
    | cons message rest =>
      have all : sent = taken ++ [message] ++ rest := by simp [split_]
      simp only [Member.turn] at moved
      split at moved
      · rename_i next stepped
        obtain rfl := Option.some.inj moved
        exact ⟨taken ++ [message], all, by rw [Actor.after_concat_ok reached, stepped]⟩
      · rename_i result stepped
        obtain rfl := Option.some.inj moved
        have ended : actor.after (taken ++ [message]) = .error result := by
          rw [Actor.after_concat_ok reached, stepped]
        exact .inl (by rw [all]; exact Actor.after_append_error ended rest)
  | ended result => cases moved

/-- Once no more can be sent, nothing more is. -/
theorem Follows.drop (follows : member.Follows actor sent dropped) :
    member.Follows actor sent true := by
  obtain ⟨config, progress, mailbox⟩ := member
  cases progress with
  | starting => exact follows
  | looping state => exact follows
  | ended result => exact follows.imp_right fun closed => ⟨rfl, closed.2⟩

theorem Follows.ended {result : ρ} (follows : member.Follows actor sent dropped)
    (ended : member.progress = .ended result) : result = actor.result sent := by
  obtain ⟨config, progress, mailbox⟩ := member
  cases ended
  rcases follows with ended | ⟨-, state, reached, rfl⟩
  · exact (Actor.result_of_error ended).symm
  · exact (Actor.result_of_ok reached).symm

theorem turn_config (moved : member.turn actor dropped = some member') :
    member'.config = member.config := by
  unfold Member.turn at moved
  split at moved
  · split at moved <;> cases moved <;> rfl
  · split at moved <;> cases moved <;> rfl
  · split at moved
    · cases moved
      rfl
    · cases moved
  · cases moved

end Member

/-! ### The caller and its members -/

/-- What the caller is at: its own calls, telling the members one last message, joining them, or
gone, with what it had told them before. -/
inductive Phase (ι μ ρ : Type) where
  | calling
  | telling (last : μ) (left : List ι) (joins : Bool)
  | joining (last : μ) (left : List ι) (results : List (ι × ρ))
  | dropped (last : Option μ)

def Phase.isDropped : Phase ι μ ρ → Bool
  | .dropped _ => true
  | _ => false

structure Crew (ι κ σ μ ρ : Type) where
  names : List ι
  members : ι → Option (Member κ σ μ ρ)
  phase : Phase ι μ ρ

inductive CrewAct (ι κ μ : Type) where
  | spawn (name : ι) (config : κ)
  | send (name : ι) (message : μ)
  /-- The last message to all members in some order, to join them after it or not. -/
  | tellAll (last : μ) (order : List ι) (joins : Bool)
  | tell
  | joinAll (order : List ι)
  | join
  | drop
  /-- A step of a member. -/
  | turn (name : ι)

inductive CrewOut where
  | done
  | exists_
  | unknown
  /-- The member has ended: the message is refused. -/
  | gone
  deriving DecidableEq

namespace Crew

variable [DecidableEq ι]

def new : Crew ι κ σ μ ρ := ⟨[], fun _ => none, .calling⟩

def setMember (s : Crew ι κ σ μ ρ) (name : ι) (member : Member κ σ μ ρ) : Crew ι κ σ μ ρ :=
  { s with members := Function.update s.members name (some member) }

def deliver (s : Crew ι κ σ μ ρ) (name : ι) (message : μ) : Crew ι κ σ μ ρ × CrewOut :=
  match s.members name with
  | none => (s, .unknown)
  | some member =>
    (s.setMember name (member.deliver message), if member.hasEnded then .gone else .done)

def step (actorOf : ι → κ → Actor σ μ ρ) (s : Crew ι κ σ μ ρ) :
    CrewAct ι κ μ → Option (Crew ι κ σ μ ρ × CrewOut)
  | .spawn name config =>
    match s.phase with
    | .calling =>
      if name ∈ s.names then some (s, .exists_)
      else some ({ s with names := s.names ++ [name] }.setMember name (.new config), .done)
    | _ => none
  | .send name message =>
    match s.phase with
    | .calling => some (s.deliver name message)
    | _ => none
  | .tellAll last order joins =>
    match s.phase with
    | .calling =>
      if order.Perm s.names then some ({ s with phase := .telling last order joins }, .done)
      else none
    | _ => none
  | .tell =>
    match s.phase with
    | .telling last (name :: left) joins =>
      some ({ (s.deliver name last).1 with phase := .telling last left joins }, .done)
    | _ => none
  | .joinAll order =>
    match s.phase with
    | .telling last [] true =>
      if order.Perm s.names then some ({ s with phase := .joining last order [] }, .done) else none
    | _ => none
  | .join =>
    match s.phase with
    | .joining last (name :: left) results =>
      match (s.members name).map Member.progress with
      | some (.ended result) =>
        some ({ s with phase := .joining last left (results ++ [(name, result)]) }, .done)
      | _ => none
    | _ => none
  | .drop =>
    match s.phase with
    | .calling => some ({ s with phase := .dropped none }, .done)
    | .telling last [] false => some ({ s with phase := .dropped (some last) }, .done)
    | _ => none
  | .turn name =>
    match s.members name with
    | none => none
    | some member =>
      (member.turn (actorOf name member.config) s.phase.isDropped).map fun member =>
        (s.setMember name member, .done)

end Crew

variable [DecidableEq ι]

def crew (actorOf : ι → κ → Actor σ μ ρ) :
    Machine (Crew ι κ σ μ ρ) (CrewAct ι κ μ) CrewOut := ⟨Crew.step actorOf⟩

abbrev CrewHistory (ι κ σ μ ρ : Type) := History (Crew ι κ σ μ ρ) (CrewAct ι κ μ) CrewOut

/-! ### What was asked of the members -/

/-- A call with a message for a member that has been started. -/
def Crew.called (s : Crew ι κ σ μ ρ) : CrewAct ι κ μ → Option (ι × μ)
  | .send name message => if name ∈ s.names then some (name, message) else none
  | _ => none

/-- The messages of the caller's calls to a member, oldest first. -/
def calledTo (name : ι) : CrewHistory ι κ σ μ ρ → List μ
  | [] => []
  | e :: history =>
    calledTo name history ++
      ((e.pre.called e.act).toList.filter fun call => call.1 = name).map Prod.snd

/-- The members started, with their configurations, oldest first. -/
def started : CrewHistory ι κ σ μ ρ → List (ι × κ)
  | [] => []
  | e :: history =>
    match e.act with
    | .spawn name config =>
      if name ∈ e.pre.names then started history else started history ++ [(name, config)]
    | _ => started history

/-- Everything sent to a member: the calls, and the last message once it was told. -/
def Crew.sent (s : Crew ι κ σ μ ρ) (history : CrewHistory ι κ σ μ ρ) (name : ι) : List μ :=
  calledTo name history ++
    match s.phase with
    | .telling last left _ => if name ∈ s.names ∧ name ∉ left then [last] else []
    | .joining last _ _ => if name ∈ s.names then [last] else []
    | .dropped (some last) => if name ∈ s.names then [last] else []
    | _ => []

/-! ### Runs -/

/-- What a run keeps between the steps taken and the state reached. -/
structure Crew.Holds (actorOf : ι → κ → Actor σ μ ρ) (history : CrewHistory ι κ σ μ ρ)
    (s : Crew ι κ σ μ ρ) : Prop where
  nodup : s.names.Nodup
  known : ∀ name, (s.members name).isSome ↔ name ∈ s.names
  names : (started history).map Prod.fst = s.names
  configs : ∀ name member, s.members name = some member → (name, member.config) ∈ started history
  quiet : ∀ name, name ∉ s.names → calledTo name history = []
  follows : ∀ name member, s.members name = some member →
    member.Follows (actorOf name member.config) (s.sent history name) s.phase.isDropped
  telling : ∀ last left joins, s.phase = .telling last left joins → left.Nodup
  joining : ∀ last left results, s.phase = .joining last left results →
    (results.map Prod.fst ++ left).Perm s.names ∧
    ∀ name result, (name, result) ∈ results →
      ∃ member, s.members name = some member ∧ member.progress = .ended result

section
variable {actorOf : ι → κ → Actor σ μ ρ} {history : CrewHistory ι κ σ μ ρ} {s s' : Crew ι κ σ μ ρ}
  {name other : ι} {message : μ} {out : CrewOut} {config : κ} {member : Member κ σ μ ρ}

theorem calledTo_quiet {act : CrewAct ι κ μ} (silent : s.called act = none) (other : ι) :
    calledTo other (⟨s, act, out, s'⟩ :: history) = calledTo other history := by
  simp [calledTo, silent]

theorem calledTo_send (named : name ∈ s.names) (other : ι) :
    calledTo other (⟨s, .send name message, out, s'⟩ :: history) =
      calledTo other history ++ if name = other then [message] else [] := by
  have called : s.called (.send name message) = some (name, message) := if_pos named
  rw [calledTo, called]
  by_cases same : name = other <;> simp [same]

namespace Crew

theorem setMember_self (s : Crew ι κ σ μ ρ) : (s.setMember name member).members name = some member :=
  Function.update_self ..

theorem setMember_ne (s : Crew ι κ σ μ ρ) (different : other ≠ name) :
    (s.setMember name member).members other = s.members other :=
  Function.update_of_ne different ..

theorem holds_new : (Crew.new : Crew ι κ σ μ ρ).Holds actorOf [] where
  nodup := .nil
  known name := by simp [Crew.new]
  names := rfl
  configs name member found := by cases found
  quiet name _ := rfl
  follows name member found := by cases found
  telling last left joins telling := by cases telling
  joining last left results joining := by cases joining

/-- A step of the caller that only changes its phase. -/
theorem Holds.rephase (holds : s.Holds actorOf history) (act : CrewAct ι κ μ)
    (phase : Phase ι μ ρ)
    (silent : s.called act = none)
    (keeps : started (⟨s, act, out, s'⟩ :: history) = started history)
    (moved : s' = { s with phase := phase })
    (told : ∀ name ∈ s.names, s'.sent history name = s.sent history name)
    (dropped : s.phase.isDropped = true → phase.isDropped = true)
    (telling : ∀ last left joins, phase = .telling last left joins → left.Nodup)
    (joining : ∀ last left results, phase = .joining last left results →
      (results.map Prod.fst ++ left).Perm s.names ∧
      ∀ name result, (name, result) ∈ results →
        ∃ member, s.members name = some member ∧ member.progress = .ended result) :
    s'.Holds actorOf (⟨s, act, out, s'⟩ :: history) := by
  subst moved
  refine ⟨holds.nodup, holds.known, keeps ▸ holds.names, keeps ▸ holds.configs, ?_, ?_, telling,
    joining⟩
  · intro name unknown
    rw [calledTo_quiet silent]
    exact holds.quiet name unknown
  · intro name member found
    have follows := holds.follows name member found
    have named := (holds.known name).mp (by rw [found]; rfl)
    have same := told name named
    simp only [Crew.sent, calledTo_quiet silent] at same ⊢
    rw [same]
    cases gone : phase.isDropped with
    | true => exact follows.drop
    | false =>
      have before : s.phase.isDropped = false := by
        by_contra was
        rw [dropped (by simpa using was)] at gone
        cases gone
      exact before ▸ follows

theorem known_setMember (holds : s.Holds actorOf history) (named : name ∈ s.names) (other : ι) :
    ((s.setMember name member).members other).isSome ↔ other ∈ s.names := by
  by_cases same : other = name
  · subst same
    simpa [setMember_self] using named
  · rw [setMember_ne s same]
    exact holds.known other

theorem Holds.turn {next : Member κ σ μ ρ} (holds : s.Holds actorOf history)
    (found : s.members name = some member)
    (moved : member.turn (actorOf name member.config) s.phase.isDropped = some next) :
    (s.setMember name next).Holds actorOf
      (⟨s, .turn name, out, s.setMember name next⟩ :: history) := by
  have named := (holds.known name).mp (by rw [found]; rfl)
  have config := Member.turn_config moved
  refine ⟨holds.nodup, known_setMember holds named, holds.names, ?_, ?_, ?_, holds.telling, ?_⟩
  · intro other current at_
    by_cases same : other = name
    · subst same
      rw [setMember_self] at at_
      obtain rfl := Option.some.inj at_
      rw [config]
      exact holds.configs other member found
    · rw [setMember_ne s same] at at_
      exact holds.configs other current at_
  · intro other unknown
    rw [calledTo_quiet rfl]
    exact holds.quiet other unknown
  · intro other current at_
    have sent : (s.setMember name next).sent (⟨s, .turn name, out, s.setMember name next⟩ :: history)
        other = s.sent history other := congrArg (· ++ _) (calledTo_quiet rfl other)
    rw [sent]
    by_cases same : other = name
    · subst same
      rw [setMember_self] at at_
      obtain rfl := Option.some.inj at_
      rw [config]
      exact (holds.follows other member found).turn moved
    · rw [setMember_ne s same] at at_
      exact holds.follows other current at_
  · intro last left results joining
    obtain ⟨all, ended⟩ := holds.joining last left results joining
    refine ⟨all, fun other result recorded => ?_⟩
    obtain ⟨current, at_, done⟩ := ended other result recorded
    by_cases same : other = name
    · subst same
      -- A member that has ended takes no step.
      obtain rfl := Option.some.inj (at_.symm.trans found)
      unfold Member.turn at moved
      rw [done] at moved
      cases moved
    · exact ⟨current, by rw [setMember_ne s same, at_], done⟩

theorem deliver_known (found : s.members name = some member) :
    (s.deliver name message).1 = s.setMember name (member.deliver message) := by
  rw [deliver, found]

theorem deliver_config (member : Member κ σ μ ρ) (message : μ) :
    (member.deliver message).config = member.config := by
  unfold Member.deliver
  split <;> rfl

/-- A delivery to a member: what it follows is one message longer. -/
theorem Holds.delivered (holds : s.Holds actorOf history) (living : s.phase.isDropped = false)
    (found : s.members name = some member) (message : μ) (other : ι) (current : Member κ σ μ ρ)
    (at_ : (s.setMember name (member.deliver message)).members other = some current) :
    (other, current.config) ∈ started history ∧
      current.Follows (actorOf other current.config)
        (s.sent history other ++ if name = other then [message] else []) false := by
  by_cases same : other = name
  · subst same
    rw [setMember_self] at at_
    obtain rfl := Option.some.inj at_
    rw [deliver_config, if_pos rfl]
    exact ⟨holds.configs other member found, (living ▸ holds.follows other member found).deliver message⟩
  · rw [setMember_ne s same] at at_
    rw [if_neg fun named => same named.symm, List.append_nil]
    exact ⟨holds.configs other current at_, living ▸ holds.follows other current at_⟩

theorem Holds.send (holds : s.Holds actorOf history) (calling : s.phase = .calling)
    (name : ι) (message : μ) :
    (s.deliver name message).1.Holds actorOf
      (⟨s, .send name message, out, (s.deliver name message).1⟩ :: history) := by
  cases found : s.members name with
  | none =>
    have unknown : name ∉ s.names := fun named => by
      have some_ := (holds.known name).mpr named
      rw [found] at some_
      cases some_
    have same : (s.deliver name message).1 = s := by rw [deliver, found]
    have silent : s.called (.send name message) = none := if_neg unknown
    rw [same]
    exact holds.rephase _ s.phase silent rfl rfl (fun _ _ => rfl) id holds.telling holds.joining
  | some member =>
    have named := (holds.known name).mp (by rw [found]; rfl)
    have living : s.phase.isDropped = false := by rw [calling]; rfl
    rw [deliver_known found]
    refine ⟨holds.nodup, known_setMember holds named, holds.names, ?_, ?_, ?_, holds.telling, ?_⟩
    · intro other current at_
      exact (holds.delivered living found message other current at_).1
    · intro other unknown
      have different : name ≠ other := fun same => unknown (same ▸ named)
      rw [calledTo_send named, holds.quiet other unknown, if_neg different]
      rfl
    · intro other current at_
      have follows := (holds.delivered living found message other current at_).2
      simp only [Crew.sent, setMember, calling, List.append_nil] at follows ⊢
      rw [calledTo_send named]
      exact follows
    · intro last left results joining
      cases calling.symm.trans joining

theorem Holds.tell {left : List ι} {last : μ} {joins : Bool} (holds : s.Holds actorOf history)
    (telling : s.phase = .telling last (name :: left) joins) :
    ({ (s.deliver name last).1 with phase := .telling last left joins } : Crew ι κ σ μ ρ).Holds
      actorOf (⟨s, .tell, out, { (s.deliver name last).1 with phase := .telling last left joins }⟩ ::
        history) := by
  obtain ⟨fresh, nodup⟩ := List.nodup_cons.mp (holds.telling _ _ _ telling)
  cases found : s.members name with
  | none =>
    have unknown : name ∉ s.names := fun named => by
      have some_ := (holds.known name).mpr named
      rw [found] at some_
      cases some_
    have same : (s.deliver name last).1 = s := by rw [deliver, found]
    rw [same]
    refine holds.rephase .tell (.telling last left joins) rfl rfl rfl (fun other named => ?_)
      (fun dropped => ?_) (fun _ _ _ same => ?_) (fun _ _ _ joining => by cases joining)
    · have different : other ≠ name := fun same => unknown (same ▸ named)
      simp only [Crew.sent, telling, List.mem_cons, different, false_or]
    · rw [telling] at dropped
      cases dropped
    · cases same
      exact nodup
  | some member =>
    have named := (holds.known name).mp (by rw [found]; rfl)
    have living : s.phase.isDropped = false := by rw [telling]; rfl
    rw [deliver_known found]
    refine ⟨holds.nodup, known_setMember holds named, holds.names, ?_, ?_, ?_, ?_, ?_⟩
    · intro other current at_
      exact (holds.delivered living found last other current at_).1
    · intro other unknown
      rw [calledTo_quiet rfl]
      exact holds.quiet other unknown
    · intro other current at_
      have follows := (holds.delivered living found last other current at_).2
      simp only [Crew.sent, setMember, telling] at follows ⊢
      rw [calledTo_quiet rfl]
      by_cases same : name = other
      · subst same
        simpa [named, fresh, Phase.isDropped] using follows
      · simpa [Ne.symm same, same, Phase.isDropped] using follows
    · intro _ _ _ same
      cases same
      exact nodup
    · intro _ _ _ joining
      cases joining

theorem Holds.spawn (holds : s.Holds actorOf history) (calling : s.phase = .calling)
    (fresh : name ∉ s.names) (config : κ) :
    ({ s with names := s.names ++ [name] }.setMember name (.new config) : Crew ι κ σ μ ρ).Holds actorOf
      (⟨s, .spawn name config, out, { s with names := s.names ++ [name] }.setMember name (.new config)⟩ ::
        history) := by
  have listed : started (⟨s, .spawn name config, out,
      { s with names := s.names ++ [name] }.setMember name (.new config)⟩ :: history) =
      started history ++ [(name, config)] := if_neg fresh
  refine ⟨?_, ?_, ?_, ?_, ?_, ?_, ?_, ?_⟩
  · refine List.nodup_append.mpr ⟨holds.nodup, List.nodup_singleton name, ?_⟩
    rintro other member another one rfl
    exact fresh (List.mem_singleton.mp one ▸ member)
  · intro other
    by_cases same : other = name
    · subst same
      simp [setMember]
    · rw [setMember_ne _ same]
      refine (holds.known other).trans ?_
      simp [setMember, same]
  · rw [listed, List.map_append, holds.names]
    rfl
  · intro other current at_
    rw [listed]
    by_cases same : other = name
    · subst same
      rw [setMember_self] at at_
      obtain rfl := Option.some.inj at_
      exact List.mem_append_right _ (List.mem_singleton.mpr rfl)
    · rw [setMember_ne _ same] at at_
      exact List.mem_append_left _ (holds.configs other current at_)
  · intro other unknown
    rw [calledTo_quiet rfl]
    exact holds.quiet other fun named => unknown (List.mem_append_left _ named)
  · intro other current at_
    have sent : ({ s with names := s.names ++ [name] }.setMember name (.new config) :
        Crew ι κ σ μ ρ).sent (⟨s, .spawn name config, out,
          { s with names := s.names ++ [name] }.setMember name (.new config)⟩ :: history) other =
        calledTo other history := by
      simp only [Crew.sent, setMember, calling, List.append_nil]
      rw [calledTo_quiet rfl]
    rw [sent]
    by_cases same : other = name
    · subst same
      rw [setMember_self] at at_
      obtain rfl := Option.some.inj at_
      rw [holds.quiet other fresh]
      exact Member.follows_new _ _ _
    · rw [setMember_ne _ same] at at_
      have follows := holds.follows other current at_
      simp only [Crew.sent, calling, List.append_nil] at follows
      simp only [setMember, calling]
      exact follows
  · intro _ _ _ telling
    cases calling.symm.trans telling
  · intro _ _ _ joining
    cases calling.symm.trans joining

/-- Every step keeps what a run keeps. -/
theorem Holds.next {act : CrewAct ι κ μ} (holds : s.Holds actorOf history)
    (moved : Crew.step actorOf s act = some (s', out)) :
    s'.Holds actorOf (⟨s, act, out, s'⟩ :: history) := by
  cases act with
  | spawn name config =>
    simp only [Crew.step] at moved
    split at moved
    · rename_i calling
      split at moved
      · rename_i named
        cases moved
        exact holds.rephase _ s.phase rfl (if_pos named) rfl (fun _ _ => rfl) id holds.telling
          holds.joining
      · rename_i fresh
        cases moved
        exact holds.spawn calling fresh config
    · cases moved
  | send name message =>
    simp only [Crew.step] at moved
    split at moved
    · rename_i calling
      have reached : (s.deliver name message).1 = s' := congrArg Prod.fst (Option.some.inj moved)
      exact reached ▸ holds.send calling name message
    · cases moved
  | tellAll last order joins =>
    simp only [Crew.step] at moved
    split at moved
    · rename_i calling
      split at moved
      · rename_i all
        cases moved
        refine holds.rephase _ (.telling last order joins) rfl rfl rfl (fun name named => ?_)
          (fun dropped => ?_) (fun _ _ _ same => ?_) (fun _ _ _ joining => by cases joining)
        · simp [Crew.sent, calling, all.mem_iff.mpr named]
        · rw [calling] at dropped
          cases dropped
        · cases same
          exact all.nodup_iff.mpr holds.nodup
      · cases moved
    · cases moved
  | tell =>
    simp only [Crew.step] at moved
    split at moved
    · rename_i telling
      cases moved
      exact holds.tell telling
    · cases moved
  | joinAll order =>
    simp only [Crew.step] at moved
    split at moved
    · rename_i last telling
      split at moved
      · rename_i all
        cases moved
        refine holds.rephase _ (.joining last order []) rfl rfl rfl (fun name named => ?_)
          (fun dropped => ?_) (fun _ _ _ telling => by cases telling) (fun _ _ _ same => ?_)
        · simp [Crew.sent, telling, named]
        · rw [telling] at dropped
          cases dropped
        · cases same
          exact ⟨all, fun _ _ recorded => by cases recorded⟩
      · cases moved
    · cases moved
  | join =>
    simp only [Crew.step] at moved
    split at moved
    · rename_i last name left results joining
      obtain ⟨all, ended⟩ := holds.joining _ _ _ joining
      split at moved
      · rename_i result done
        cases moved
        refine holds.rephase _ (.joining last left (results ++ [(name, result)])) rfl rfl rfl
          (fun name named => ?_) (fun dropped => ?_) (fun _ _ _ telling => by cases telling)
          (fun _ _ _ same => ?_)
        · simp [Crew.sent, joining, named]
        · rw [joining] at dropped
          cases dropped
        · cases same
          refine ⟨by simpa using all, fun other found recorded => ?_⟩
          rcases List.mem_append.mp recorded with earlier | one
          · exact ended other found earlier
          · obtain ⟨rfl, rfl⟩ := Prod.mk.inj (List.mem_singleton.mp one)
            obtain ⟨member, at_, progress⟩ := Option.map_eq_some_iff.mp done
            exact ⟨member, at_, progress⟩
      · cases moved
    · cases moved
  | drop =>
    simp only [Crew.step] at moved
    split at moved
    · rename_i calling
      cases moved
      refine holds.rephase _ (.dropped none) rfl rfl rfl (fun name named => ?_) (fun _ => rfl)
        (fun _ _ _ telling => by cases telling) (fun _ _ _ joining => by cases joining)
      simp [Crew.sent, calling]
    · rename_i last telling
      cases moved
      refine holds.rephase _ (.dropped (some last)) rfl rfl rfl (fun name named => ?_) (fun _ => rfl)
        (fun _ _ _ telling => by cases telling) (fun _ _ _ joining => by cases joining)
      simp [Crew.sent, telling, named]
    · cases moved
  | turn name =>
    simp only [Crew.step] at moved
    split at moved
    · cases moved
    · rename_i member found
      obtain ⟨next, turned, same⟩ := Option.map_eq_some_iff.mp moved
      cases same
      exact holds.turn found turned

end Crew

variable {history : CrewHistory ι κ σ μ ρ}

theorem crew_holds (run : Run (crew actorOf) .new history s) : s.Holds actorOf history :=
  run.history_invariant Crew.holds_new fun _ _ _ _ _ _ holds moved => holds.next moved

/-- However the members were interleaved with the caller: one that has ended has ended with what it
makes of all that was sent to it. -/
theorem crew_ended {result : ρ} (run : Run (crew actorOf) .new history s)
    (found : s.members name = some member) (ended : member.progress = .ended result) :
    (name, member.config) ∈ started history ∧
      result = (actorOf name member.config).result (s.sent history name) :=
  have holds := crew_holds run
  ⟨holds.configs name member found, (holds.follows name member found).ended ended⟩

/-- The results of a join: one of each member, of the calls and the last message. -/
theorem crew_joined {last : μ} {results : List (ι × ρ)} (run : Run (crew actorOf) .new history s)
    (joined : s.phase = .joining last [] results) :
    (results.map Prod.fst).Perm ((started history).map Prod.fst) ∧
      ((started history).map Prod.fst).Nodup ∧
      ∀ name result, (name, result) ∈ results → ∃ config, (name, config) ∈ started history ∧
        result = (actorOf name config).result (calledTo name history ++ [last]) := by
  have holds := crew_holds run
  obtain ⟨all, ended⟩ := holds.joining _ _ _ joined
  rw [List.append_nil] at all
  refine ⟨holds.names ▸ all, holds.names ▸ holds.nodup, fun name result recorded => ?_⟩
  obtain ⟨member, found, done⟩ := ended name result recorded
  obtain ⟨listed, same⟩ := crew_ended run found done
  have named : name ∈ s.names := (holds.known name).mp (by rw [found]; rfl)
  refine ⟨member.config, listed, same.trans ?_⟩
  simp only [Crew.sent, joined, named, if_true]

end

/-! ### Callers of one kind of call -/

/-- The calls of a component that owns a crew: each is a step of the crew, the messages sent are items
of one type, and what is told last says whether the members will be joined. -/
structure CrewCalls (β ι κ μ ν : Type) where
  act : β → CrewAct ι κ μ
  item : ν → μ
  last : Bool → μ
  request : β → Option (ι × ν)
  sends : ∀ call name message, act call = .send name message →
    ∃ x, request call = some (name, x) ∧ message = item x
  requests : ∀ call name x, request call = some (name, x) → act call = .send name (item x)
  tells : ∀ call last_ order joins, act call = .tellAll last_ order joins → last_ = last joins

/-- What the members are told last, and whether they will be joined. -/
def Crew.told (s : Crew ι κ σ μ ρ) : Option (μ × Bool) :=
  match s.phase with
  | .telling last _ joins => some (last, joins)
  | .joining last _ _ => some (last, true)
  | .dropped (some last) => some (last, false)
  | _ => none

namespace CrewCalls

variable {β ν : Type} {actorOf : ι → κ → Actor σ μ ρ} {s s' : Crew ι κ σ μ ρ} {name : ι}
  {out : CrewOut} {history : History (Crew ι κ σ μ ρ) β CrewOut}

/-- The same steps as those of the crew. -/
def crewHistory (calls : CrewCalls β ι κ μ ν) (history : History (Crew ι κ σ μ ρ) β CrewOut) :
    CrewHistory ι κ σ μ ρ :=
  history.map fun e => ⟨e.pre, calls.act e.act, e.out, e.post⟩

/-- The items of the calls for a member that was started, oldest first. -/
def requested (calls : CrewCalls β ι κ μ ν) (name : ι) :
    History (Crew ι κ σ μ ρ) β CrewOut → List ν
  | [] => []
  | e :: history =>
    match calls.request e.act with
    | some (other, x) =>
      if other ∈ e.pre.names ∧ other = name then calls.requested name history ++ [x]
      else calls.requested name history
    | none => calls.requested name history

variable (calls : CrewCalls β ι κ μ ν)

theorem calledTo_crewHistory (name : ι) (history : History (Crew ι κ σ μ ρ) β CrewOut) :
    calledTo name (calls.crewHistory history) = (calls.requested name history).map calls.item := by
  induction history with
  | nil => rfl
  | cons e history ih =>
    obtain ⟨pre, call, out, post⟩ := e
    cases asked : calls.request call with
    | none =>
      have silent : pre.called (calls.act call) = none := by
        unfold Crew.called
        split
        · rename_i other message sends
          obtain ⟨x, same, -⟩ := calls.sends call other message sends
          cases asked.symm.trans same
        · rfl
      refine (calledTo_quiet silent name).trans (ih.trans ?_)
      simp only [requested, asked]
    | some pair =>
      obtain ⟨other, x⟩ := pair
      have act := calls.requests call other x asked
      have split_ : calls.crewHistory (⟨pre, call, out, post⟩ :: history) =
          ⟨pre, .send other (calls.item x), out, post⟩ :: calls.crewHistory history :=
        congrArg (fun act => (⟨pre, act, out, post⟩ : Transition _ _ _) :: calls.crewHistory history) act
      rw [split_]
      simp only [requested, asked]
      by_cases known : other ∈ pre.names
      · rw [calledTo_send known, ih]
        by_cases same : other = name
        · rw [if_pos same, if_pos ⟨known, same⟩, List.map_append]
          rfl
        · rw [if_neg same, if_neg fun both => same both.2, List.append_nil]
      · have silent : pre.called (.send other (calls.item x)) = none := if_neg known
        rw [calledTo_quiet silent, ih, if_neg fun both => known both.1]

theorem deliver_told (s : Crew ι κ σ μ ρ) (name : ι) (message : μ) :
    (s.deliver name message).1.phase = s.phase := by
  unfold Crew.deliver
  split <;> rfl

/-- Only `tellAll` sets what is told last. -/
theorem step_told {act : CrewAct ι κ μ} (moved : Crew.step actorOf s act = some (s', out)) :
    s'.told = s.told ∨
      ∃ last order joins, act = .tellAll last order joins ∧ s'.told = some (last, joins) := by
  cases act with
  | tellAll last order joins =>
    refine .inr ⟨last, order, joins, rfl, ?_⟩
    simp only [Crew.step] at moved
    split at moved
    · split at moved <;> cases moved
      rfl
    · cases moved
  | spawn name config =>
    simp only [Crew.step] at moved
    split at moved
    · split at moved <;> cases moved
      · exact .inl rfl
      · exact .inl rfl
    · cases moved
  | send name message =>
    simp only [Crew.step] at moved
    split at moved
    · have reached : (s.deliver name message).1 = s' := congrArg Prod.fst (Option.some.inj moved)
      left
      rw [← reached, Crew.told, deliver_told]
      rfl
    · cases moved
  | tell =>
    simp only [Crew.step] at moved
    split at moved
    · rename_i telling
      cases moved
      exact .inl (by simp only [Crew.told, telling])
    · cases moved
  | joinAll order =>
    simp only [Crew.step] at moved
    split at moved
    · rename_i telling
      split at moved <;> cases moved
      exact .inl (by simp only [Crew.told, telling])
    · cases moved
  | join =>
    simp only [Crew.step] at moved
    split at moved
    · rename_i joining
      split at moved <;> cases moved
      exact .inl (by simp only [Crew.told, joining])
    · cases moved
  | drop =>
    simp only [Crew.step] at moved
    split at moved
    · rename_i calling
      cases moved
      exact .inl (by simp only [Crew.told, calling])
    · rename_i telling
      cases moved
      exact .inl (by simp only [Crew.told, telling])
    · cases moved
  | turn name =>
    simp only [Crew.step] at moved
    split at moved
    · cases moved
    · obtain ⟨next, -, same⟩ := Option.map_eq_some_iff.mp moved
      cases same
      exact .inl rfl

theorem told_last (run : Run ((crew actorOf).via calls.act) .new history s) {last : μ} {joins : Bool}
    (told : s.told = some (last, joins)) : last = calls.last joins := by
  have always : ∀ last joins, s.told = some (last, joins) → last = calls.last joins := by
    refine run.invariant (P := fun s => ∀ last joins, s.told = some (last, joins) →
      last = calls.last joins) (fun last joins never => by cases never) ?_
    intro s call s' out before moved last joins told
    rcases step_told moved with same | ⟨last', order, joins', act, set_⟩
    · exact before last joins (same ▸ told)
    · cases set_.symm.trans told
      exact calls.tells call last order joins act
  exact always last joins told

/-- The results of a join: one of each member started, of what was asked of it. -/
theorem joined {last : μ} {results : List (ι × ρ)}
    (run : Run ((crew actorOf).via calls.act) .new history s)
    (joined : s.phase = .joining last [] results) :
    (results.map Prod.fst).Perm ((started (calls.crewHistory history)).map Prod.fst) ∧
      ((started (calls.crewHistory history)).map Prod.fst).Nodup ∧
      ∀ name result, (name, result) ∈ results →
        ∃ config, (name, config) ∈ started (calls.crewHistory history) ∧
          result = (actorOf name config).result
            ((calls.requested name history).map calls.item ++ [calls.last true]) := by
  have told : last = calls.last true := calls.told_last run (by rw [Crew.told, joined])
  obtain ⟨all, nodup, each⟩ := crew_joined (Run.of_via run) joined
  refine ⟨all, nodup, fun name result recorded => ?_⟩
  obtain ⟨config, listed, same⟩ := each name result recorded
  refine ⟨config, listed, ?_⟩
  rw [same, told, ← calls.calledTo_crewHistory]
  rfl

/-- A member that has ended once all were told not to be joined. -/
theorem dropped {last : μ} {member : Member κ σ μ ρ} {result : ρ}
    (run : Run ((crew actorOf).via calls.act) .new history s)
    (dropped : s.phase = .dropped (some last)) (found : s.members name = some member)
    (ended : member.progress = .ended result) :
    result = (actorOf name member.config).result
      ((calls.requested name history).map calls.item ++ [calls.last false]) := by
  have told : last = calls.last false := calls.told_last run (by rw [Crew.told, dropped])
  have holds := crew_holds (Run.of_via run)
  have named : name ∈ s.names := (holds.known name).mp (by rw [found]; rfl)
  rw [(crew_ended (Run.of_via run) found ended).2, ← calls.calledTo_crewHistory]
  simp only [Crew.sent, dropped, named, if_true, told]
  rfl

end CrewCalls

end Library
