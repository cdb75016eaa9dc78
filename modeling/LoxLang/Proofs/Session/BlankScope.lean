import LoxLang.Proofs.Session.CorrespondingSession
import LoxLang.Proofs.Session.Scoping
import LoxLang.Proofs.Store.Alignment

/-!
# Runs that open blank scopes

Two runs do the same if one of them opens scopes now and then in which no name is ever bound, and
the other one opens none, or others. The scopes of the two runs then have different numbers, and a
function may close over a blank scope in one run and over the scope around it in the other. An
alignment says which scopes are matched and which are blank. It grows with every scope that is
opened; that a new scope is none that was there before takes machines whose scopes are in order.
-/

namespace LoxLang

/-! ## Alignments -/

namespace Layout

/-- A scope with the scopes around it, from the inside out. -/
def chain (layout : Layout) (scope : ScopeId) : List ScopeId := scope :: layout.enclosing scope

/-- The layout with one more scope. -/
def push (layout : Layout) (outer : ScopeId) : Layout :=
  ⟨layout.size + 1, fun scope =>
    if scope = layout.size then layout.chain outer else layout.enclosing scope⟩

/-- One more scope changes nothing of those that were there. -/
theorem le_push (layout : Layout) (outer : ScopeId) : layout ≤ layout.push outer :=
  ⟨Nat.le_succ _, fun _ isOpen => if_neg (Nat.ne_of_lt isOpen)⟩

/-- A new scope stands in front of the scope around it. -/
theorem chain_push (layout : Layout) (outer : ScopeId) :
    (layout.push outer).chain layout.size = layout.size :: layout.chain outer :=
  congrArg (layout.size :: ·) (if_pos rfl)

/-- Scopes that were there are inside the same ones later. -/
theorem chain_of_le {earlier later : Layout} (le : earlier ≤ later) {scope : ScopeId}
    (isOpen : scope < earlier.size) : later.chain scope = earlier.chain scope :=
  congrArg (scope :: ·) (le.2 scope isOpen)

end Layout

/-- The layout of a store with one more scope is the layout with one more scope. -/
theorem Store.layout_push {α : Type} (store : Store α) (outer : ScopeId) :
    (store.push (some outer)).layout = store.layout.push outer :=
  congrArg₂ Layout.mk (size_push ..) (funext fun scope => enclosing_push store (some outer) scope)

/-- How the scopes of two runs are matched up. A scope has at most one match, and a scope with a
match is not blank. -/
structure Alignment where
  first : Layout
  second : Layout
  Pairs : ScopeId → ScopeId → Prop
  /-- The first run binds no name in the scope. -/
  Blank : ScopeId → Prop
  /-- The second run binds no name in the scope. -/
  OtherBlank : ScopeId → Prop
  open_of_pairs : ∀ {scope other}, Pairs scope other → scope < first.size ∧ other < second.size
  open_of_blank : ∀ {scope}, Blank scope → scope < first.size
  open_of_otherBlank : ∀ {other}, OtherBlank other → other < second.size
  unique : ∀ {scope other another further}, Pairs scope other → Pairs another further →
    (scope = another ↔ other = further)
  not_blank : ∀ {scope other}, Pairs scope other → ¬ Blank scope ∧ ¬ OtherBlank other
  aligned : ∀ {scope other}, Pairs scope other →
    Aligned Pairs Blank OtherBlank (first.chain scope) (second.chain other)

namespace Alignment

/-- What is matched or blank once is so ever after, and no scope is taken back or moved. -/
structure Grows (earlier later : Alignment) : Prop where
  first : earlier.first ≤ later.first
  second : earlier.second ≤ later.second
  pairs : ∀ scope other, earlier.Pairs scope other → later.Pairs scope other
  blank : ∀ scope, earlier.Blank scope → later.Blank scope
  otherBlank : ∀ other, earlier.OtherBlank other → later.OtherBlank other

instance : LE Alignment := ⟨Grows⟩

instance : Preorder Alignment where
  le_refl alignment := ⟨le_refl _, le_refl _, fun _ _ => id, fun _ => id, fun _ => id⟩
  le_trans _ _ _ former latter :=
    ⟨le_trans former.first latter.first, le_trans former.second latter.second,
      fun scope other isPair => latter.pairs scope other (former.pairs scope other isPair),
      fun scope isBlank => latter.blank scope (former.blank scope isBlank),
      fun other isBlank => latter.otherBlank other (former.otherBlank other isBlank)⟩

/-- The same names are found from both scopes. -/
structure Sees (alignment : Alignment) (scope other : ScopeId) : Prop where
  isOpen : scope < alignment.first.size
  otherOpen : other < alignment.second.size
  aligned : Aligned alignment.Pairs alignment.Blank alignment.OtherBlank
    (alignment.first.chain scope) (alignment.second.chain other)

section Growth

variable {alignment : Alignment} {scope other outer otherOuter : ScopeId}

/-- Scopes that are matched are aligned with what is around them. -/
theorem sees_of_pairs (isPair : alignment.Pairs scope other) : alignment.Sees scope other :=
  ⟨(alignment.open_of_pairs isPair).1, (alignment.open_of_pairs isPair).2,
    alignment.aligned isPair⟩

/-- Scopes that see the same names do so later. -/
theorem Sees.mono {grown : Alignment} (sees : alignment.Sees scope other)
    (grows : alignment ≤ grown) : grown.Sees scope other where
  isOpen := sees.isOpen.trans_le grows.first.1
  otherOpen := sees.otherOpen.trans_le grows.second.1
  aligned := by
    rw [Layout.chain_of_le grows.first sees.isOpen, Layout.chain_of_le grows.second sees.otherOpen]
    exact sees.aligned.mono grows.pairs grows.blank grows.otherBlank

/-- Both runs open a scope. -/
def joined (alignment : Alignment) (sees : alignment.Sees outer otherOuter) : Alignment where
  first := alignment.first.push outer
  second := alignment.second.push otherOuter
  Pairs scope other := alignment.Pairs scope other ∨
    scope = alignment.first.size ∧ other = alignment.second.size
  Blank := alignment.Blank
  OtherBlank := alignment.OtherBlank
  open_of_pairs := by
    rintro scope other (isPair | ⟨rfl, rfl⟩)
    · obtain ⟨isOpen, otherOpen⟩ := alignment.open_of_pairs isPair
      exact ⟨Nat.lt_succ_of_lt isOpen, Nat.lt_succ_of_lt otherOpen⟩
    · exact ⟨Nat.lt_succ_self _, Nat.lt_succ_self _⟩
  open_of_blank isBlank := Nat.lt_succ_of_lt (alignment.open_of_blank isBlank)
  open_of_otherBlank isBlank := Nat.lt_succ_of_lt (alignment.open_of_otherBlank isBlank)
  unique := by
    rintro scope other another further (isPair | ⟨rfl, rfl⟩) (isFurther | ⟨rfl, rfl⟩)
    · exact alignment.unique isPair isFurther
    · obtain ⟨isOpen, otherOpen⟩ := alignment.open_of_pairs isPair
      exact iff_of_false isOpen.ne otherOpen.ne
    · obtain ⟨isOpen, otherOpen⟩ := alignment.open_of_pairs isFurther
      exact iff_of_false isOpen.ne' otherOpen.ne'
    · exact iff_of_true rfl rfl
  not_blank := by
    rintro scope other (isPair | ⟨rfl, rfl⟩)
    · exact alignment.not_blank isPair
    · exact ⟨fun isBlank => (alignment.open_of_blank isBlank).false,
        fun isBlank => (alignment.open_of_otherBlank isBlank).false⟩
  aligned := by
    have later {scopes others : List ScopeId} (aligned : Aligned alignment.Pairs alignment.Blank
        alignment.OtherBlank scopes others) := aligned.mono
      (fun scope other isPair => Or.inl (b := scope = alignment.first.size ∧
        other = alignment.second.size) isPair) (fun _ => id) (fun _ => id)
    rintro scope other (isPair | ⟨rfl, rfl⟩)
    · obtain ⟨isOpen, otherOpen⟩ := alignment.open_of_pairs isPair
      rw [Layout.chain_of_le (Layout.le_push _ _) isOpen,
        Layout.chain_of_le (Layout.le_push _ _) otherOpen]
      exact later (alignment.aligned isPair)
    · rw [Layout.chain_push, Layout.chain_push]
      exact .pair (.inr ⟨rfl, rfl⟩) (later sees.aligned)

/-- An alignment grows by a pair of new scopes. -/
theorem le_joined (sees : alignment.Sees outer otherOuter) : alignment ≤ alignment.joined sees :=
  ⟨Layout.le_push _ _, Layout.le_push _ _, fun _ _ => .inl, fun _ => id, fun _ => id⟩

/-- The first run opens a blank scope. -/
def passed (alignment : Alignment) (outer : ScopeId) : Alignment where
  first := alignment.first.push outer
  second := alignment.second
  Pairs := alignment.Pairs
  Blank scope := alignment.Blank scope ∨ scope = alignment.first.size
  OtherBlank := alignment.OtherBlank
  open_of_pairs isPair := (alignment.open_of_pairs isPair).imp_left Nat.lt_succ_of_lt
  open_of_blank := by
    rintro scope (isBlank | rfl)
    · exact Nat.lt_succ_of_lt (alignment.open_of_blank isBlank)
    · exact Nat.lt_succ_self _
  open_of_otherBlank := alignment.open_of_otherBlank
  unique := alignment.unique
  not_blank isPair := by
    refine (alignment.not_blank isPair).imp_left fun notBlank => ?_
    exact not_or_intro notBlank (alignment.open_of_pairs isPair).1.ne
  aligned isPair := by
    rw [Layout.chain_of_le (Layout.le_push _ _) (alignment.open_of_pairs isPair).1]
    exact (alignment.aligned isPair).mono (fun _ _ => id) (fun _ => .inl) (fun _ => id)

/-- An alignment grows by a blank scope of the first run. -/
theorem le_passed (alignment : Alignment) (outer : ScopeId) : alignment ≤ alignment.passed outer :=
  ⟨Layout.le_push _ _, le_refl _, fun _ _ => id, fun _ => .inl, fun _ => id⟩

/-- From inside a blank scope the same names are found as from around it. -/
theorem sees_passed (sees : alignment.Sees outer other) :
    (alignment.passed outer).Sees alignment.first.size other where
  isOpen := Nat.lt_succ_self _
  otherOpen := sees.otherOpen
  aligned := by
    change Aligned _ _ _ ((alignment.first.push outer).chain _) _
    rw [Layout.chain_push]
    exact .pass (.inr rfl) (sees.aligned.mono (fun _ _ => id) (fun _ => .inl) (fun _ => id))

/-- The alignment of the second run with the first one. -/
def flip (alignment : Alignment) : Alignment where
  first := alignment.second
  second := alignment.first
  Pairs scope other := alignment.Pairs other scope
  Blank := alignment.OtherBlank
  OtherBlank := alignment.Blank
  open_of_pairs isPair := (alignment.open_of_pairs isPair).symm
  open_of_blank := alignment.open_of_otherBlank
  open_of_otherBlank := alignment.open_of_blank
  unique isPair isFurther := (alignment.unique isPair isFurther).symm
  not_blank isPair := (alignment.not_blank isPair).symm
  aligned isPair := (alignment.aligned isPair).flip

/-- The growth of an alignment is growth from either side. -/
theorem Grows.flip {grown : Alignment} (grows : alignment ≤ grown) : alignment.flip ≤ grown.flip :=
  ⟨grows.second, grows.first, fun scope other => grows.pairs other scope, grows.otherBlank,
    grows.blank⟩

/-- The same names are found from either side. -/
theorem Sees.flip (sees : alignment.Sees scope other) : alignment.flip.Sees other scope :=
  ⟨sees.otherOpen, sees.isOpen, sees.aligned.flip⟩

/-- The second run opens a blank scope. -/
def passedOther (alignment : Alignment) (outer : ScopeId) : Alignment :=
  (alignment.flip.passed outer).flip

/-- An alignment grows by a blank scope of the second run. -/
theorem le_passedOther (alignment : Alignment) (outer : ScopeId) :
    alignment ≤ alignment.passedOther outer :=
  Grows.flip (alignment.flip.le_passed outer)

/-- From inside a blank scope of the second run the same names are found as from around it. -/
theorem sees_passedOther (sees : alignment.Sees scope outer) :
    (alignment.passedOther outer).Sees scope alignment.second.size :=
  (sees_passed sees.flip).flip

end Growth

end Alignment

/-! ## Machines -/

/-- Scopes stand for each other if they are matched. Both runs execute the same trees. -/
def aligning : Matching Alignment where
  OnStmt := Eq
  OnBody := Eq
  Sees := Alignment.Sees
  Owns := Alignment.Pairs
  sameForm := Stmt.sameForm_of_eq
  inTurn := Stmt.inTurn_of_eq
  sees_of_owns := Alignment.sees_of_pairs
  seesLater grows sees := sees.mono grows
  ownsLater grows := grows.pairs _ _

namespace Alignment

open Matching

/-- Scopes that are matched bind the same names, to values that stand for each other, and blank
scopes bind none. -/
structure OnStore (alignment : Alignment) (store other : Store Value) : Prop where
  first : store.layout = alignment.first
  second : other.layout = alignment.second
  get? : ∀ {scope another}, alignment.Pairs scope another → ∀ name,
    Option.Rel (aligning.OnValue alignment) ((store.bindings scope).get? name)
      ((other.bindings another).get? name)
  blank : ∀ {scope}, alignment.Blank scope → store.bindings scope = []
  otherBlank : ∀ {scope}, alignment.OtherBlank scope → other.bindings scope = []

/-- The machines are the same up to blank scopes. -/
structure OnMachine (alignment : Alignment) (machine other : Machine) : Prop where
  store : alignment.OnStore machine.store other.store
  callables : other.callables = machine.callables
  clock : other.clock = machine.clock
  readings : other.readings = machine.readings
  events : machine.LooksLike other

variable {alignment : Alignment} {scope another : ScopeId} {value otherValue : Value}

/-- Values that stand for each other do so in every alignment that has grown from there. -/
theorem onValue_get?_mono {grown : Alignment} (grows : alignment ≤ grown)
    {found otherFound : Option Value}
    (values : Option.Rel (aligning.OnValue alignment) found otherFound) :
    Option.Rel (aligning.OnValue grown) found otherFound := by
  cases values with
  | none => exact .none
  | some values => exact .some (values.mono grows)

namespace OnStore

variable {store other : Store Value}

/-- Two stores that are aligned have the scopes around two scopes aligned. -/
theorem aligned (stores : alignment.OnStore store other) (sees : alignment.Sees scope another) :
    Aligned alignment.Pairs alignment.Blank alignment.OtherBlank (store.chain scope)
      (other.chain another) := by
  have aligned := sees.aligned
  rw [← stores.first, ← stores.second] at aligned
  exact aligned

/-- A name is found from both scopes or from none. -/
theorem lookup? (stores : alignment.OnStore store other) (sees : alignment.Sees scope another)
    (name : String) :
    Option.Rel (aligning.OnValue alignment) (store.lookup? scope name)
      (other.lookup? another name) := by
  refine (stores.aligned sees).findSome? ?_ ?_ ?_
  · exact fun _ _ isPair => stores.get? isPair name
  · intro scope isBlank
    rw [stores.blank isBlank]
    rfl
  · intro scope isBlank
    rw [stores.otherBlank isBlank]
    rfl

/-- A name is held by scopes that are matched, or by none: blank scopes hold no name. -/
theorem holder? (stores : alignment.OnStore store other) (sees : alignment.Sees scope another)
    (name : String) :
    Option.Rel alignment.Pairs (store.holder? scope name) (other.holder? another name) := by
  refine (stores.aligned sees).find? ?_ ?_ ?_
  · intro scope another isPair
    have found := stores.get? isPair name
    generalize (store.bindings scope).get? name = value at found ⊢
    generalize (other.bindings another).get? name = otherValue at found ⊢
    cases found <;> rfl
  · intro scope isBlank
    rw [stores.blank isBlank]
    rfl
  · intro scope isBlank
    rw [stores.otherBlank isBlank]
    rfl

/-- A name may be bound in two scopes that are matched. -/
theorem define (stores : alignment.OnStore store other) (isPair : alignment.Pairs scope another)
    (name : String) (values : aligning.OnValue alignment value otherValue) :
    alignment.OnStore (store.define scope name value) (other.define another name otherValue) where
  first := (store.layout_define ..).trans stores.first
  second := (other.layout_define ..).trans stores.second
  get? {candidate further} isFurther bound := by
    have isOpen : scope < store.size ∧ another < other.size := by
      have bounds := alignment.open_of_pairs isPair
      rw [← stores.first, ← stores.second] at bounds
      exact bounds
    rw [Store.bindings_define, Store.bindings_define]
    -- A scope is changed in the one run exactly if its match is changed in the other.
    by_cases same : candidate = scope
    · have sameOther : further = another := (alignment.unique isFurther isPair).mp same
      rw [if_pos ⟨same, isOpen.1⟩, if_pos ⟨sameOther, isOpen.2⟩]
      exact onValue_set name (stores.get? isFurther) values bound
    · have otherDiffers : further ≠ another := mt (alignment.unique isFurther isPair).mpr same
      rw [if_neg (mt And.left same), if_neg (mt And.left otherDiffers)]
      exact stores.get? isFurther bound
  blank {candidate} isBlank := by
    have differs : candidate ≠ scope := by
      rintro rfl
      exact (alignment.not_blank isPair).1 isBlank
    rw [Store.bindings_define, if_neg (mt And.left differs)]
    exact stores.blank isBlank
  otherBlank {candidate} isBlank := by
    have differs : candidate ≠ another := by
      rintro rfl
      exact (alignment.not_blank isPair).2 isBlank
    rw [Store.bindings_define, if_neg (mt And.left differs)]
    exact stores.otherBlank isBlank

/-- A scope that is yet to be opened binds nothing. -/
theorem bindings_fresh (store : Store Value) : store.bindings store.layout.size = [] :=
  Store.bindings_of_size_le (le_refl _)

/-- Both runs open a scope. -/
theorem joined (stores : alignment.OnStore store other) (sees : alignment.Sees scope another) :
    (alignment.joined sees).OnStore (store.push (some scope)) (other.push (some another)) where
  first := (store.layout_push scope).trans (congrArg (·.push scope) stores.first)
  second := (other.layout_push another).trans (congrArg (·.push another) stores.second)
  get? := by
    rintro candidate further (isPair | ⟨rfl, rfl⟩) name
    · rw [Store.bindings_push, Store.bindings_push]
      exact onValue_get?_mono (le_joined sees) (stores.get? isPair name)
    · rw [Store.bindings_push, Store.bindings_push, ← stores.first, ← stores.second,
        bindings_fresh, bindings_fresh]
      exact .none
  blank isBlank := (Store.bindings_push ..).trans (stores.blank isBlank)
  otherBlank isBlank := (Store.bindings_push ..).trans (stores.otherBlank isBlank)

/-- The first run opens a blank scope. -/
theorem passed (stores : alignment.OnStore store other) (outer : ScopeId) :
    (alignment.passed outer).OnStore (store.push (some outer)) other where
  first := (store.layout_push outer).trans (congrArg (·.push outer) stores.first)
  second := stores.second
  get? isPair name := by
    rw [Store.bindings_push]
    exact onValue_get?_mono (alignment.le_passed outer) (stores.get? isPair name)
  blank := by
    rintro candidate (isBlank | rfl)
    · exact (Store.bindings_push ..).trans (stores.blank isBlank)
    · rw [Store.bindings_push, ← stores.first, bindings_fresh]
  otherBlank := stores.otherBlank

/-- The second run opens a blank scope. -/
theorem passedOther (stores : alignment.OnStore store other) (outer : ScopeId) :
    (alignment.passedOther outer).OnStore store (other.push (some outer)) where
  first := stores.first
  second := (other.layout_push outer).trans (congrArg (·.push outer) stores.second)
  get? isPair name := by
    rw [Store.bindings_push]
    exact onValue_get?_mono (alignment.le_passedOther outer) (stores.get? isPair name)
  blank := stores.blank
  otherBlank := by
    rintro candidate (isBlank | rfl)
    · exact (Store.bindings_push ..).trans (stores.otherBlank isBlank)
    · change (other.push (some outer)).bindings alignment.second.size = []
      rw [Store.bindings_push, ← stores.second, bindings_fresh]

end OnStore

namespace OnMachine

variable {machine other : Machine}

/-- Both machines may be given stores that are aligned in an alignment that has grown. -/
theorem withStore {grown : Alignment} (machines : alignment.OnMachine machine other)
    {store otherStore : Store Value} (stores : grown.OnStore store otherStore) :
    grown.OnMachine { machine with store } { other with store := otherStore } :=
  ⟨stores, machines.callables, machines.clock, machines.readings, machines.events⟩

/-- The machines have as many scopes as the layouts of their alignment. -/
theorem size (machines : alignment.OnMachine machine other) :
    machine.store.size = alignment.first.size ∧ other.store.size = alignment.second.size :=
  ⟨congrArg Layout.size machines.store.first, congrArg Layout.size machines.store.second⟩

end OnMachine

end Alignment

/-! ## Runs -/

/-- Programs that are the same, on machines that are the same up to blank scopes. -/
def passingBlank : Correspondence Alignment where
  toMatching := aligning
  OnMachine := Alignment.OnMachine

/-- What can be told of values is the same in an alignment. -/
theorem shows_passingBlank : passingBlank.Shows where
  looksLike machines := machines.events
  withEvents machines _ _ alike :=
    ⟨machines.store, machines.callables, machines.clock, machines.readings, alike⟩

/-- Every step of a run is kept by alignments: the scopes that both runs open are matched. -/
theorem kept_passingBlank (settings : Settings) : passingBlank.Kept settings settings where
  turns := rfl
  readVariable := by
    intro alignment scope another name sees machine other machines
    have found := machines.store.lookup? sees name.lexeme
    unfold Run.readVariable
    generalize machine.store.lookup? scope name.lexeme = value at found ⊢
    generalize other.store.lookup? another name.lexeme = otherValue at found ⊢
    cases found with
    | none => exact .halted _ le_rfl machines
    | some values => exact .done le_rfl values machines
  assignVariable := by
    intro alignment scope another value otherValue name sees values machine other machines
    have found := machines.store.holder? sees name.lexeme
    unfold Run.assignVariable
    generalize machine.store.holder? scope name.lexeme = holder at found ⊢
    generalize other.store.holder? another name.lexeme = otherHolder at found ⊢
    cases found with
    | none => exact .halted _ le_rfl machines
    | some isPair =>
      exact .done le_rfl trivial (machines.withStore (machines.store.define isPair _ values))
  define name isPair values :=
    .change fun machines => machines.withStore (machines.store.define isPair name values)
  openScope := by
    intro alignment scope another sees machine other machines
    have isNew : (alignment.joined sees).Pairs machine.store.size other.store.size :=
      .inr machines.size
    exact .done (Alignment.le_joined sees) isNew (machines.withStore (machines.store.joined sees))
  makeCallable := by
    intro alignment behaviour otherBehaviour behaviours machine other machines
    exact .done le_rfl ⟨machines.callables, behaviours⟩ ⟨machines.store,
      congrArg (· + 1) machines.callables, machines.clock, machines.readings, machines.events⟩
  readClock := by
    intro alignment machine other machines
    unfold Run.readClock
    rw [machines.clock, machines.readings]
    exact .done le_rfl (.plain rfl)
      ⟨machines.store, machines.callables, rfl, rfl, machines.events⟩
  print := shows_passingBlank.print
  trace := shows_passingBlank.trace _

/-! ## Blank scopes in one of the runs -/

section OneSided

variable {α β : Type} {alignment : Alignment} {scope another : ScopeId}
  {alike : Alignment → α → α → Prop}

/-- The first run opens a scope in which it binds nothing. -/
theorem onRun_passed (sees : alignment.Sees scope another) {next : ScopeId → Run α} {run : Run α}
    (runs : ∀ {grown inner}, alignment ≤ grown → grown.Sees inner another →
      passingBlank.OnRun grown alike (next inner) run) :
    passingBlank.OnRun alignment alike (Run.openScope scope >>= next) run := by
  intro machine other machines
  have grows := alignment.le_passed scope
  have seesInner := Alignment.sees_passed sees
  rw [← machines.size.1] at seesInner
  have opened : (alignment.passed scope).OnMachine
      { machine with store := machine.store.push (some scope) } other :=
    machines.withStore (machines.store.passed scope)
  exact (runs grows seesInner opened).earlier grows

/-- The second run opens a scope in which it binds nothing. -/
theorem onRun_passedOther (sees : alignment.Sees scope another) {next : ScopeId → Run α}
    {run : Run α}
    (runs : ∀ {grown inner}, alignment ≤ grown → grown.Sees scope inner →
      passingBlank.OnRun grown alike run (next inner)) :
    passingBlank.OnRun alignment alike run (Run.openScope another >>= next) := by
  intro machine other machines
  have grows := alignment.le_passedOther another
  have seesInner := Alignment.sees_passedOther sees
  rw [← machines.size.2] at seesInner
  have opened : (alignment.passedOther another).OnMachine machine
      { other with store := other.store.push (some another) } :=
    machines.withStore (machines.store.passedOther another)
  exact (runs grows seesInner opened).earlier grows

end OneSided

/-! ## The same machine -/

section Same

open Matching

variable {machine : Machine}

/-- The scopes that are open, each matched with itself. -/
def Alignment.same (inOrder : machine.InOrder) : Alignment where
  first := machine.store.layout
  second := machine.store.layout
  Pairs scope other := other = scope ∧ scope < machine.store.size
  Blank _ := False
  OtherBlank _ := False
  open_of_pairs := by
    rintro scope _ ⟨rfl, isOpen⟩
    exact ⟨isOpen, isOpen⟩
  open_of_blank := False.elim
  open_of_otherBlank := False.elim
  unique := by
    rintro scope _ another _ ⟨rfl, -⟩ ⟨rfl, -⟩
    exact Iff.rfl
  not_blank _ := ⟨id, id⟩
  aligned := by
    rintro scope _ ⟨rfl, isOpen⟩
    exact .refl fun candidate member => ⟨rfl, inOrder.rooted.lt_size_of_mem_chain isOpen member⟩

/-- On the same machine every scope is matched with itself. -/
theorem Alignment.pairs_same (inOrder : machine.InOrder) {scope : ScopeId}
    (isOpen : scope < machine.store.size) : (same inOrder).Pairs scope scope := ⟨rfl, isOpen⟩

/-- On the same machine every value stands for itself. -/
theorem Alignment.onValue_same (inOrder : machine.InOrder) {value : Value}
    (closes : ∀ closure, value.closure? = some closure → closure < machine.store.size) :
    aligning.OnValue (same inOrder) value value := by
  cases value with
  | callable callable =>
    obtain ⟨identity, behaviour⟩ := callable
    refine .callable ⟨rfl, ?_⟩
    cases behaviour with
    | function declaration closure =>
      have isPair := pairs_same inOrder (closes closure rfl)
      exact .function ⟨rfl, rfl, rfl⟩ (sees_of_pairs isPair)
    | clock => exact .clock
    | native arity closure function =>
      cases closure with
      | none => exact .native arity .none function
      | some closure =>
        have isPair := pairs_same inOrder (closes closure rfl)
        exact .native arity (.some (sees_of_pairs isPair)) function
    | abstract arity => exact .abstract arity
  | _ => exact .plain rfl

/-- A machine whose scopes are in order stands for itself. -/
theorem Alignment.onMachine_same (inOrder : machine.InOrder) :
    (same inOrder).OnMachine machine machine where
  store.first := rfl
  store.second := rfl
  store.get? := by
    rintro _ scope ⟨rfl, -⟩ name
    cases isBound : (machine.store.bindings scope).get? name with
    | none => exact .none
    | some value =>
      refine .some (onValue_same inOrder fun closure closes => ?_)
      exact (inOrder.closures scope name value closure isBound closes).1
  store.blank := False.elim
  store.otherBlank := False.elim
  callables := rfl
  clock := rfl
  readings := rfl
  events := .refl machine

end Same

end LoxLang
