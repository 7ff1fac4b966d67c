import PipelineSql.Proofs.RowTexts
import PipelineSql.Proofs.Relation.Faithful

/-!
# What rendering an expression changes

An expression is rendered by a command on the context. The command binds element variables, writes
values in place and writes apart from the text so far, each for a time, and it may end in an error
in the middle of that.

Main result: in every mode, whether rendering ends well or not, all that was changed for a time is
put back. Rendering adds to what has been emitted and to the text, and leaves all else as it is.
What is added depends on nothing but the row, the settings, and the numbers of the next slot and of
the next aliases. So what one expression has left behind is not seen by the next.
-/

namespace PipelineSql

/-! ## Requests -/

/-- What is asked for: an expression in one of the modes, or an accumulator over a group. -/
inductive Request where
  | value (e : Expr)
  | typed (e : Expr) (type : JsonType)
  | numeric (e : Expr)
  | condition (e : Expr)
  | json (e : Expr)
  | aggregate (op : Accumulator) (arg : Option Expr)

/-- The text that is asked for. -/
def Request.render : Request → Render Fragment
  | .value e => e.value
  | .typed e type => e.typed type
  | .numeric e => (Reading.ofExpr e).number
  | .condition e => return (← e.condition).fragment
  | .json e => return (← e.json).1
  | .aggregate op arg => return (← Expr.aggregate op arg).1

namespace Request

variable (q : Request)

/-- In every mode a request adds the same to emissions of one level, and its command is faithful. -/
lemma run_render (env : Env) :
    (RenderLogic.faithful False True env.dataColumn).Run (some env.sight) Eq q.render q.render := by
  let L := RenderLogic.faithful False True env.dataColumn
  have hknown (e : Expr) : L.Known e := fun _ _ =>
    ⟨fun _ _ => trivial, fun _ _ => trivial, RenderLogic.extracts_faithful _, fun _ _ => trivial⟩
  have hreads (e : Expr) := RenderLogic.reads_ofExpr e (hknown e)
  cases q with
  | value e => exact (hreads e).value _ none
  | typed e type =>
    have : L.Extracts (some type) := RenderLogic.extracts_faithful _
    exact (hreads e).value _ (some type)
  | numeric e => exact (hreads e).number _
  | condition e =>
    exact L.bind ((hreads e).condition _) fun _ _ hc => L.pure (FragmentLogic.rel_condition hc)
  | json e => exact L.bind ((hreads e).json _) fun _ _ hf => L.pure hf.1
  | aggregate op arg =>
    exact L.bind (RenderLogic.run_exprAggregate (hknown _)) fun _ _ hf => L.pure hf.1

/-- In every mode the same is added to emissions of one level. -/
lemma beside (env : Env) {m m' : Emission} (h : m.Level m') :
    Outcome.Beside m m' Eq ((q.render.run env).run m) ((q.render.run env).run m') :=
  (q.run_render env).1 env env m m' (env.alike_sight fun _ => trivial) h

/-- The command of a request is faithful in every context. -/
lemma faithful_render (c : Context) : q.render.Faithful False c :=
  (q.run_render c.env).2 c c.env (c.env.alike_sight fun _ => trivial)

/-- Write what is asked for behind the text so far. -/
def write : Command Unit := do
  Command.write (← q.render.exec)

end Request

/-! ## Contexts -/

namespace Context

/-- The context at the end of a command. -/
def final {α : Type} : EStateM.Result Error Context α → Context
  | .ok _ c => c
  | .error _ c => c

variable {c : Context} {q : Request} {text : Fragment} {x : Error} {e : Emission}

/-- What is asked for is written behind the text so far. -/
lemma run_write_ok (h : (q.render.run c.env).run c.emission = .ok text e) :
    q.write.run c = .ok () { c with emission := e, buffer := c.buffer ++ text } := by
  have hends : c.Ends False _ _ := q.faithful_render c
  rw [h] at hends
  unfold Request.write
  simp only [EStateM.run, bind, EStateM.bind] at hends ⊢
  generalize q.render.exec c = r at hends
  cases hends with
  | ok hctes =>
    obtain rfl := hctes.resolve_right id
    rfl

/-- After an error all is as before but what has been emitted. -/
lemma run_write_error (h : (q.render.run c.env).run c.emission = .error x e) :
    q.write.run c = .error x { c with emission := e } := by
  have hends : c.Ends False _ _ := q.faithful_render c
  rw [h] at hends
  unfold Request.write
  simp only [EStateM.run, bind, EStateM.bind] at hends ⊢
  generalize q.render.exec c = r at hends
  cases hends with
  | error hctes =>
    obtain rfl := hctes.resolve_right id
    rfl

/-- What is captured is the text, and the text so far is back. -/
lemma run_capture_ok (h : (q.render.run c.env).run c.emission = .ok text e) :
    (Command.capture q.write).run c = .ok text { c with emission := e } := by
  have hwrite := run_write_ok (c := { c with buffer := [] }) h
  rw [Command.run_capture]
  simp only [EStateM.run, bind, EStateM.bind] at hwrite ⊢
  rw [hwrite]
  rfl

/-- After an error the text so far is back as well. -/
lemma run_capture_error (h : (q.render.run c.env).run c.emission = .error x e) :
    (Command.capture q.write).run c = .error x { c with emission := e } := by
  have hwrite := run_write_error (c := { c with buffer := [] }) h
  rw [Command.run_capture]
  simp only [EStateM.run, bind, EStateM.bind] at hwrite ⊢
  rw [hwrite]
  rfl

/-- At the end of a request all is as before, but what has been emitted and the text. -/
lemma final_write (c : Context) (q : Request) : final (q.write.run c) =
    { c with
      emission := (final (q.write.run c)).emission
      buffer := (final (q.write.run c)).buffer } := by
  cases hrun : (q.render.run c.env).run c.emission with
  | ok text e =>
    rw [run_write_ok hrun]
    rfl
  | error x e =>
    rw [run_write_error hrun]
    rfl

/-- What a request emits is what its text emits. -/
lemma emission_final_write (c : Context) (q : Request) : (final (q.write.run c)).emission =
    Emission.final ((q.render.run c.env).run c.emission) := by
  cases hrun : (q.render.run c.env).run c.emission with
  | ok text e =>
    rw [run_write_ok hrun]
    rfl
  | error x e =>
    rw [run_write_error hrun]
    rfl

/-- What is captured is what would be added to the text. -/
lemma capture_of_write_ok {d : Context} (h : q.write.run c = .ok () d) :
    ∃ text, d.buffer = c.buffer ++ text ∧
      (Command.capture q.write).run c = .ok text { d with buffer := c.buffer } := by
  cases hrun : (q.render.run c.env).run c.emission with
  | ok text e =>
    rw [run_write_ok hrun] at h
    rw [run_capture_ok hrun, ← (EStateM.Result.ok.inj h).2]
    exact ⟨text, rfl, rfl⟩
  | error x e =>
    rw [run_write_error hrun] at h
    exact absurd h (by simp)

/-- Capturing ends in the error in which writing ends. -/
lemma capture_of_write_error {d : Context} (h : q.write.run c = .error x d) :
    (Command.capture q.write).run c = .error x { d with buffer := c.buffer } := by
  cases hrun : (q.render.run c.env).run c.emission with
  | ok text e =>
    rw [run_write_ok hrun] at h
    exact absurd h (by simp)
  | error y e =>
    rw [run_write_error hrun] at h
    obtain ⟨rfl, rfl⟩ := EStateM.Result.error.inj h
    exact run_capture_error hrun

/-- What is emitted is emitted in any context with the same row, settings and next numbers. -/
lemma run_capture_beside {other : Context} (henv : other.env = c.env)
    (hlevel : c.emission.Level other.emission) :
    ∃ added, (final (q.write.run c)).emission = c.emission ++ added ∧
      (∀ text d, (Command.capture q.write).run c = .ok text d →
        (Command.capture q.write).run other =
          .ok text { other with emission := other.emission ++ added }) ∧
      ∀ x d, (Command.capture q.write).run c = .error x d →
        (Command.capture q.write).run other =
          .error x { other with emission := other.emission ++ added } := by
  have hbeside := q.beside c.env hlevel
  generalize hrun : (q.render.run c.env).run c.emission = r,
    hother : (q.render.run c.env).run other.emission = r' at hbeside
  rw [← henv] at hother
  cases hbeside with
  | ok added htext =>
    subst htext
    rw [run_write_ok hrun, run_capture_ok hrun, run_capture_ok hother]
    refine ⟨added, rfl, fun text' d h => ?_, fun _ _ h => absurd h (by simp)⟩
    rw [(EStateM.Result.ok.inj h).1]
  | error added =>
    rw [run_write_error hrun, run_capture_error hrun, run_capture_error hother]
    refine ⟨added, rfl, fun _ _ h => absurd h (by simp), fun y d h => ?_⟩
    rw [(EStateM.Result.error.inj h).1]

/-- Rendering an expression touches only its outputs, in every mode and in every context.

Be it after a value or after an error, the row, the element variables, the number of parts written
in place, the stage, the named subqueries and the settings are what they were. The values and the
warnings go on those before, and no alias is counted down. After a value the text goes on the text
before, and capturing gives exactly what was added and leaves the text alone; after an error
capturing gives the error, and leaves the text alone as well. And in any other context with the same
row, settings and next numbers, whatever it holds besides, capturing ends in the same text or the
same error, and the same is emitted. -/
theorem rendering_touches_only_outputs (c : Context) (q : Request) :
    let after := final (q.write.run c)
    after = { c with emission := after.emission, buffer := after.buffer } ∧
      (c.emission.values <+: after.emission.values ∧
        c.emission.warnings <+: after.emission.warnings ∧
        ∀ base, c.emission.aliases.count base ≤ after.emission.aliases.count base) ∧
      ((∀ d, q.write.run c = .ok () d → ∃ text, d.buffer = c.buffer ++ text ∧
          (Command.capture q.write).run c = .ok text { d with buffer := c.buffer }) ∧
        ∀ x d, q.write.run c = .error x d →
          (Command.capture q.write).run c = .error x { d with buffer := c.buffer }) ∧
      ∀ other : Context, other.env = c.env → c.emission.Level other.emission →
        ∃ added, after.emission = c.emission ++ added ∧
          (∀ text d, (Command.capture q.write).run c = .ok text d →
            (Command.capture q.write).run other =
              .ok text { other with emission := other.emission ++ added }) ∧
          ∀ x d, (Command.capture q.write).run c = .error x d →
            (Command.capture q.write).run other =
              .error x { other with emission := other.emission ++ added } := by
  intro after
  have hgrows := q.render.grows c.env c.emission
  rw [← emission_final_write] at hgrows
  exact ⟨c.final_write q, ⟨hgrows.1, hgrows.2.2.1, fun base => hgrows.2.1.sublist.count_le base⟩,
    ⟨fun _ => capture_of_write_ok, fun _ _ => capture_of_write_error⟩,
    fun _ => run_capture_beside⟩

/-- The items above 5, by an element variable. -/
def largeItems (element : String) : Request :=
  .value (.array .filter (some (.field { path := ⟨["items"]⟩ })) none
    [.compare .gt (.var element none) (.lit (.int 5))] (some "x"))

/-- A context in which an array has been expanded and a query wrapped. -/
def expandedFirst : Context :=
  { Context.of {} {} with
    scope := .document baseAlias "data"
    emission := { values := [.int 1], aliases := ["elem", "q"] }
    buffer := "SELECT " }

/-- A context in which this came about the other way round, and nothing has been written. -/
def wrappedFirst : Context :=
  { expandedFirst with emission := { values := [.null], aliases := ["q", "elem"] }, buffer := [] }

/-- The items are rendered alike in both contexts. With an element variable that is not bound there
is an error instead, after which the variable that is bound for the items is gone. -/
theorem largeItems_rendered_alike :
    (∃ text d, (largeItems "x").write.run expandedFirst = .ok () d ∧
      d.buffer = expandedFirst.buffer ++ text) ∧
    (∃ added, ∃ text d, (Command.capture (largeItems "x").write).run expandedFirst = .ok text d ∧
      (Command.capture (largeItems "x").write).run wrappedFirst =
        .ok text { wrappedFirst with emission := wrappedFirst.emission ++ added }) ∧
    ∃ x d, (largeItems "y").write.run expandedFirst = .error x d ∧ d.elements = [] := by
  obtain ⟨d, hwrite⟩ : ∃ d, (largeItems "x").write.run expandedFirst = .ok () d := ⟨_, rfl⟩
  obtain ⟨x, d', herror⟩ : ∃ x d, (largeItems "y").write.run expandedFirst = .error x d :=
    ⟨_, _, rfl⟩
  have hlevel : expandedFirst.emission.Level wrappedFirst.emission := by
    refine ⟨rfl, fun base => List.Perm.count_eq ?_ base⟩
    exact .swap "q" "elem" []
  obtain ⟨_, _, ⟨hcapture, _⟩, hother⟩ :=
    rendering_touches_only_outputs expandedFirst (largeItems "x")
  obtain ⟨text, hbuffer, hcapture⟩ := hcapture d hwrite
  obtain ⟨added, _, hother, _⟩ := hother wrappedFirst rfl hlevel
  refine ⟨⟨text, d, hwrite, hbuffer⟩, ⟨added, text, _, hcapture, hother text _ hcapture⟩,
    x, d', herror, ?_⟩
  have hframe := (rendering_touches_only_outputs expandedFirst (largeItems "y")).1
  rw [herror] at hframe
  exact congrArg Context.elements hframe

end Context

end PipelineSql
