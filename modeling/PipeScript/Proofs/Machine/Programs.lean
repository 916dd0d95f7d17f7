import PipeScript.Machine.Execute
import Mathlib.Data.Nat.Notation
import Mathlib.Tactic.SplitIfs

/-! # Programs

A *program* is an action that may run pipelines of its own.  The commands are programs built from
few primitives (`Within`): they look at the store, the registry, the clock and the seed, note what
they do, and change only the parts of the machine that they touch (`within_run`).  No primitive
looks at the effects or at the trace, and the only faults that one stops are those of a pipeline that
it tries. -/

namespace PipeScript.Proofs.Machine.Programs

/-! ### Running actions -/

section Run

variable {α β : Type} (m : Machine)

@[simp] theorem pure_apply (a : α) : (pure a : Action α) m = (.ok a, m) := rfl

@[simp] theorem throw_apply (fault : Fault) : (throw fault : Action α) m = (.error fault, m) := rfl

theorem bind_apply (x : Action α) (f : α → Action β) :
    (x >>= f) m = match x m with
      | (.ok a, after) => f a after
      | (.error fault, after) => (.error fault, after) := by
  change ExceptT.bindCont f (x m).1 (x m).2 = _
  rcases x m with ⟨_ | _, _⟩ <;> rfl

theorem bind_ok {x : Action α} {a : α} {after : Machine} (h : x m = (.ok a, after))
    (f : α → Action β) : (x >>= f) m = f a after := by
  rw [bind_apply, h]

theorem bind_error {x : Action α} {fault : Fault} {after : Machine}
    (h : x m = (.error fault, after)) (f : α → Action β) :
    (x >>= f) m = (.error fault, after) := by
  rw [bind_apply, h]

theorem tryCatch_apply (x : Action α) (f : Fault → Action α) :
    (tryCatch x f) m = match x m with
      | (.ok a, after) => (.ok a, after)
      | (.error fault, after) => f fault after := by
  change ExceptT.tryCatch x f m = _
  unfold ExceptT.tryCatch
  simp only [ExceptT.mk, bind, StateT.bind]
  rcases x m with ⟨_ | _, _⟩ <;> rfl

@[simp] theorem get_apply : (get : Action Machine) m = (.ok m, m) := rfl

@[simp] theorem note_apply (entry : TraceEntry) :
    Action.note entry m = (.ok (), { m with trace := entry :: m.trace }) := rfl

@[simp] theorem store_apply : Action.store m = (.ok m.store, m) := rfl

@[simp] theorem modifyStore_apply (f : Store → Store) :
    Action.modifyStore f m = (.ok (), { m with store := f m.store }) := rfl

end Run

/-! ### Running a call -/

section Dispatch

variable {m : Machine} {call : Call}

/-- The machine that has noted the dispatch of a command. -/
def dispatching (command : Command) (inv : Invocation) (m : Machine) : Machine :=
  { m with trace := .dispatch command.name m.depth inv.arguments inv.value :: m.trace }

/-- A call that finds its command notes the dispatch and runs the command from there. -/
theorem dispatch_found {command : Command} (h : m.registry.get? call.name = some command)
    (nested : Nested) (pipe : String) :
    dispatch nested call pipe m =
      Action.leavingCommand (command.handler.run nested (call.invocation pipe))
        (dispatching command (call.invocation pipe) m) := by
  unfold dispatch
  rw [bind_ok m (get_apply m), h]
  dsimp only
  rw [bind_ok m (note_apply m _)]
  rfl

/-- A call that finds no command is refused. -/
theorem dispatch_unknown (h : m.registry.get? call.name = none) (nested : Nested) (pipe : String) :
    dispatch nested call pipe m = (.error (.unknownCommand call.name), m) := by
  unfold dispatch
  rw [bind_ok m (get_apply m), h]
  rfl

/-- A call that finds its command notes something and runs it. -/
theorem dispatch_of_get? {command : Command} (h : m.registry.get? call.name = some command)
    (nested : Nested) (pipe : String) :
    ∃ entry, dispatch nested call pipe m =
      Action.leavingCommand (command.handler.run nested (call.invocation pipe))
        { m with trace := entry :: m.trace } :=
  ⟨_, dispatch_found h nested pipe⟩

end Dispatch

/-! ### What programs are built from -/

/-- The parts of a machine that commands change. -/
inductive Part where
  | store
  | effects
  | seed

/-- An action that may run pipelines. -/
abbrev Program (α : Type) := Nested → Action α

/-- What a command notes by itself: anything but that a command is dispatched. -/
def IsRemark : TraceEntry → Prop
  | .dispatch .. => False
  | _ => True

/-- Programs that are built from the primitives and change no other parts than they may. -/
inductive Within (may : Part → Prop) : {α : Type} → Program α → Prop where
  | pure {α : Type} (a : α) : Within may fun _ => Pure.pure a
  | bind {α β : Type} {x : Program α} {f : α → Program β} (hx : Within may x)
      (hf : ∀ a, Within may (f a)) : Within may fun nested => x nested >>= fun a => f a nested
  | throw {α : Type} (fault : Fault) : Within may fun _ => (MonadExcept.throw fault : Action α)
  | trial {α : Type} (command : String) (passed : String → α) (failed : Fault → α) :
      Within may fun nested => MonadExcept.tryCatch (do return passed (← nested command))
        fun fault => do
          Action.note (.caught fault)
          return failed fault
  | look {α : Type} (f : Store → Registry → (clock seed : ℕ) → α) :
      Within may fun _ => do
        let m ← get
        return f m.store m.registry m.clock m.seed
  | idle (stage awaited pipe : String) :
      Within may fun _ => Action.note (.idle stage awaited pipe)
  | modifyStore (h : may .store) (f : Store → Store) : Within may fun _ => Action.modifyStore f
  | say (h : may .effects) (effect : Effect) : Within may fun _ => Action.say effect
  | reseed (h : may .seed) (f : ℕ → ℕ) :
      Within may fun _ => modify fun m => { m with seed := f m.seed }
  | nested (command : String) : Within may fun nested => nested command

namespace Within

variable {may : Part → Prop} {α β : Type}

theorem store : Within may fun _ => Action.store := look fun store _ _ _ => store

theorem ofExcept (result : Except Fault α) : Within may fun _ => Action.ofExcept result := by
  cases result with
  | ok a => exact pure a
  | error fault => exact throw fault

theorem ite {c : Prop} [Decidable c] {x y : Program α} (hx : Within may x) (hy : Within may y) :
    Within may fun nested => if c then x nested else y nested := by
  by_cases hc : c
  · simpa only [hc, if_true] using hx
  · simpa only [hc, if_false] using hy

theorem write (form : Value → String) (v : Value) : Within may fun _ => Action.write form v :=
  ite (throw _) (pure _)

theorem spell (v : Value) : Within may fun _ => Action.spell v :=
  ite (throw _) (pure _)

theorem current (item : Shared) : Within may fun _ => Action.current item :=
  bind store fun store => pure (store.current item).toValue

theorem mapM {f : α → Program β} (hf : ∀ a, Within may (f a)) (as : List α) :
    Within may fun nested => as.mapM fun a => f a nested := by
  induction as with
  | nil => exact pure []
  | cons a as ih =>
    simp only [List.mapM_cons]
    exact bind (hf a) fun b => bind ih fun bs => pure (b :: bs)

end Within

/-! ### The commands -/

/-- The parts that a command changes by itself. -/
def touches : Builtin → Part → Prop
  | .setAt, .store | .setVar, .store | .setGlobalVar, .store | .flushVar, .store => True
  | .echo, .effects => True
  | .shuffle, .seed => True
  | _, _ => False

section Commands

variable {may : Part → Prop} (inv : Invocation)

theorem within_structured (literal : Value) : Within may fun _ => inv.structured literal :=
  .bind .store fun _ => .pure _

theorem within_firstValue : Within may fun _ => inv.firstValue :=
  .bind .store fun _ => .pure _

theorem within_path : Within may fun _ => inv.path :=
  .ofExcept _

theorem within_handOn (stage awaited incoming : String) :
    Within may fun _ => Command.handOn stage awaited incoming :=
  .bind (.idle _ _ _) fun _ => .pure _

theorem within_attempt : Within may fun nested => Command.attempt nested inv :=
  .bind (.trial _ (fun output => Envelope.returned (.text output))
    fun fault => Envelope.raised (some fault.message)) fun _ => .pure _

theorem within_recover : Within may fun nested => Command.recover nested inv := by
  unfold Command.recover
  rcases Envelope.decode? inv.incoming with _ | (outcome | result | message | subject)
  · exact within_handOn _ _ _
  · exact within_handOn _ _ _
  · exact .write _ _
  · exact .nested _
  · exact within_handOn _ _ _

theorem within_switch : Within may fun _ => Command.switch inv :=
  .bind (within_firstValue inv) fun _ => .write _ _

theorem within_matchCase : Within may fun nested => Command.matchCase nested inv := by
  unfold Command.matchCase
  rcases Envelope.decode? inv.incoming with _ | (outcome | result | message | subject)
  · exact within_handOn _ _ _
  · exact .pure _
  · exact .pure _
  · exact .pure _
  · exact .ite (.bind (.write _ _) fun _ => .nested _) (.pure _)

theorem within_evaluateCondition :
    Within may fun nested => Command.evaluateCondition nested inv :=
  .bind (.nested _) fun _ => .pure _

theorem within_whenOutcome {run : Program String} (hrun : Within may run) (stage : String)
    (outcome : Bool) (incoming : String) :
    Within may fun nested => Command.whenOutcome stage outcome (run nested) incoming := by
  unfold Command.whenOutcome
  rcases Envelope.decode? incoming with _ | (actual | result | message | subject)
  · exact within_handOn _ _ _
  · exact .ite hrun (.pure _)
  · exact .pure _
  · exact .pure _
  · exact .pure _

theorem within_compare : Within may fun _ => Command.compare inv :=
  .bind .store fun _ => .bind (.ofExcept _) fun _ => .pure _

theorem within_collection (name : String) : Within may fun _ => Command.collection name inv := by
  refine .bind .store fun store => ?_
  dsimp only
  rcases (store.iterated (inv.argumentValue "list") (inv.argument? "var")
    (inv.argument? "globalvar")).collection? with _ | c
  · exact .throw _
  · exact .pure _

theorem within_runEntry (template : String) (entry : Scalar × Shared) :
    Within may fun nested => Command.runEntry nested template entry :=
  .bind (.current _) fun _ => .bind (.write _ _) fun _ => .nested _

theorem within_runEntries (template : String) (entries : List (Scalar × Shared)) :
    Within may fun nested => Command.runEntries nested template entries :=
  .mapM (within_runEntry template) entries

theorem within_forEach : Within may fun nested => Command.forEach nested inv :=
  .bind (within_collection inv _) fun _ => .bind (within_runEntries _ _) fun _ => .pure _

theorem within_mapItems : Within may fun nested => Command.mapItems nested inv :=
  .bind (within_collection inv _) fun _ => .bind (within_runEntries _ _) fun _ => .write _ _

theorem within_filter : Within may fun nested => Command.filter nested inv := by
  refine .bind (within_collection inv _) fun c => .bind (within_runEntries _ _) fun outputs => ?_
  refine .bind (.mapM (fun entry => ?_) _) fun _ => .write _ _
  exact .bind (.current _) fun _ => .pure _

theorem within_findEntry (template : String) (entries : List (Scalar × Shared)) :
    Within may fun nested => Command.findEntry nested template entries := by
  induction entries with
  | nil => exact .pure _
  | cons entry rest ih =>
    refine .bind (within_runEntry template entry) fun output => .ite ?_ ih
    exact .bind (.current _) fun _ => .write _ _

theorem within_find : Within may fun nested => Command.find nested inv :=
  .bind (within_collection inv _) fun _ => within_findEntry _ _

theorem within_sliceEnd? : Within may fun _ => Command.sliceEnd? inv := by
  unfold Command.sliceEnd?
  rcases inv.argument? "end" with _ | stop
  · rcases inv.given? "length" with _ | length
    · exact .pure _
    · dsimp only
      rcases (inv.argumentValue "start").asNumber.add? (.ofText length) with _ | n
      · exact .throw _
      · exact .pure _
  · exact .pure _

theorem within_sliceRange (length : ℕ) : Within may fun _ => Command.sliceRange inv length :=
  .bind (within_sliceEnd? inv) fun _ => .pure _

theorem within_slice : Within may fun _ => Command.slice inv := by
  refine .bind (within_structured inv _) fun data => ?_
  refine .ite (.bind (within_firstValue inv) ?_) (.bind (.pure _) ?_)
  all_goals
    intro data
    rcases data with (_ | _ | _ | s | _) | items | entries
    · exact .throw _
    · exact .throw _
    · exact .throw _
    · exact .bind (within_sliceRange inv _) fun _ => .pure _
    · exact .throw _
    · exact .bind (within_sliceRange inv _) fun _ => .write _ _
    · exact .throw _

theorem within_shuffle (hseed : may .seed) : Within may fun _ => Command.shuffle inv := by
  unfold Command.shuffle
  rcases Store.firstTruthy [(Store.literalSource (.text inv.value)).map Shared.structured] with
    (_ | items | _) | _ | _
  · exact .throw _
  · -- the seed is looked at, then moved on
    refine .bind (x := fun _ => do return (← get).seed) (.look fun _ _ _ seed => seed)
      (f := fun seed _ => do
        modify fun m => { m with seed := (m.seed * 22695477 + 1) % 0x80000000 }
        Action.write Value.json (.list (Command.drawItems items.length seed items))) fun seed => ?_
    exact .bind (.reseed hseed fun seed => (seed * 22695477 + 1) % 0x80000000) fun _ => .write _ _
  · exact .throw _
  · exact .throw _
  · exact .throw _

theorem within_pairOf (entry : Value) : Within may fun _ => Command.pairOf entry := by
  rcases entry with s | parts | entries
  · exact .bind (.write _ _) fun _ => .throw _
  · exact .bind (.spell _) fun _ => .pure _
  · exact .bind (.write _ _) fun _ => .throw _

theorem within_pairs : Within may fun _ => Command.pairs inv := by
  refine .bind (within_structured inv _) fun data => ?_
  rcases data.toValue with s | items | entries
  · exact .throw _
  · exact .bind (.mapM within_pairOf items) fun _ => .write _ _
  · exact .throw _

theorem within_prettyJson : Within may fun _ => Command.prettyJson inv := by
  unfold Command.prettyJson
  rcases Json.parse? inv.value with _ | v
  · exact .throw _
  · exact .write _ _

theorem within_getAt : Within may fun _ => Command.getAt inv := by
  refine .bind (within_path inv) fun path => .bind (within_structured inv _) fun data =>
    .ite (.throw _) (.bind (.ofExcept _) fun found => ?_)
  rcases found with _ | (_ | _ | _ | _ | _) | _ | _
  · exact .pure _
  · exact .pure _
  all_goals exact .write _ _

theorem within_setAt (hstore : may .store) : Within may fun _ => Command.setAt inv := by
  refine .bind (within_path inv) fun path => .bind (within_structured inv _) fun data => ?_
  rcases hset : data.toValue.setAt path (decodedText inv.value) with ⟨updated, _ | fault⟩
  · dsimp only
    refine .bind (.modifyStore hstore _) fun _ => .bind (.write _ _) fun text => ?_
    rcases inv.given? "var" with _ | localName <;> rcases inv.given? "globalvar" with _ | globalName
    · exact .pure _
    · exact .bind (.modifyStore hstore _) fun _ => .pure _
    · exact .bind (.modifyStore hstore _) fun _ => .pure _
    · exact .bind (.modifyStore hstore _) fun _ => .bind (.modifyStore hstore _) fun _ => .pure _
  · exact .bind (.modifyStore hstore _) fun _ => .throw _

theorem within_keyed (command : String) (write : Store → String → String → Store)
    (hstore : may .store) : Within may fun _ => (match Command.keyArgument? inv with
      | none => throw (.keyMissing command)
      | some name => do
        Action.modifyStore fun store => write store name inv.value
        return inv.value : Action String) := by
  rcases Command.keyArgument? inv with _ | name
  · exact .throw _
  · exact .bind (.modifyStore hstore _) fun _ => .pure _

theorem within_readPattern (mode : Pattern.Mode) (source : String) :
    Within may fun _ => Command.readPattern mode source := by
  unfold Command.readPattern
  rcases Pattern.read mode source with e | p
  · exact .throw _
  · exact .pure _

theorem within_subjectText : Within may fun _ => Command.subjectText inv := by
  refine .bind (within_firstValue inv) fun v => ?_
  rcases v with (_ | _ | _ | _ | _) | _ | _
  · exact .pure _
  all_goals exact .spell _

theorem within_pieces (find text : String) : Within may fun _ => Command.pieces find text := by
  unfold Command.pieces
  rcases PatternLiteral.ofText? find with _ | literal
  · exact .ite (.pure _) (.pure _)
  · exact .bind (within_readPattern _ _) fun _ => .pure _

theorem within_split : Within may fun _ => Command.split inv :=
  .bind (within_subjectText inv) fun _ => .bind (within_pieces _ _) fun _ => .pure _

theorem within_join : Within may fun _ => Command.join inv := by
  refine .bind (within_structured inv _) fun data => ?_
  rcases data.toValue with s | items | entries
  · exact .pure _
  · exact .ite (.throw _) (.pure _)
  · exact .pure _

theorem within_replace (all : Bool) : Within may fun _ => Command.replace all inv := by
  unfold Command.replace
  rcases inv.given? "find" with _ | find
  · exact .throw _
  · refine .bind (within_subjectText inv) fun text => ?_
    dsimp only
    rcases PatternLiteral.ofText? find with _ | literal
    · exact .bind (within_readPattern _ _) fun _ => .pure _
    · exact .bind (within_readPattern _ _) fun _ => .pure _

end Commands

/-- **Every command is built from the primitives**, and changes only what its name allows. -/
theorem within_run (b : Builtin) (inv : Invocation) :
    Within (touches b) fun nested => b.run nested inv := by
  cases b with
  | both => exact .pure _
  | matchCase => exact within_matchCase inv
  | recover => exact within_recover inv
  | pairs => exact within_pairs inv
  | otherwise => exact within_whenOutcome (.nested _) _ _ _
  | elseIf => exact within_whenOutcome (within_evaluateCondition inv) _ _ _
  | filter => exact within_filter inv
  | find => exact within_find inv
  | forEach => exact within_forEach inv
  | getAt => exact within_getAt inv
  | condition => exact within_evaluateCondition inv
  | join => exact within_join inv
  | prettyJson => exact within_prettyJson inv
  | listing => exact .look fun _ registry _ _ => registry.listing
  | mapItems => exact within_mapItems inv
  | negate => exact .pure _
  | either => exact .pure _
  | replace => exact within_replace inv _
  | replaceAll => exact within_replace inv _
  | setAt => exact within_setAt inv trivial
  | shuffle => exact within_shuffle inv trivial
  | slice => exact within_slice inv
  | split => exact within_split inv
  | switch => exact within_switch inv
  | compare => exact within_compare inv
  | whenTrue => exact within_whenOutcome (.nested _) _ _ _
  | timestamp => exact .look fun _ _ clock _ => (Value.int clock).json
  | trim => exact .pure _
  | attempt => exact within_attempt inv
  | echo => exact .bind (.say trivial _) fun _ => .pure _
  | flushVar => exact .bind (.modifyStore trivial _) fun _ => .pure _
  | getGlobalVar => exact .bind .store fun _ => .write _ _
  | getVar => exact .bind .store fun _ => .write _ _
  | pass => exact .pure _
  | setGlobalVar => exact within_keyed inv _ Store.writeGlobal trivial
  | setVar => exact within_keyed inv _ Store.writeLocal trivial
  | raise => exact .throw _

/-- A command of the host changes nothing. -/
theorem within_host {may : Part → Prop} (run : HostRun) (inv : Invocation) :
    Within may fun nested => (Handler.host run).run nested inv :=
  .bind (.ofExcept _) fun _ => .write _ _

end PipeScript.Proofs.Machine.Programs
