import TableOps.Proofs.Command.Reading
import TableOps.Proofs.Filter.Conditions
import TableOps.Proofs.Session.CommandEffect
import TableOps.Proofs.Session.Issued
import TableOps.Proofs.Statement.Comparisons

/-!
# What short forms send

A short form turns plain conditions into a filter and a query, and runs the command that these make.
The statements it sends compare a condition when some condition is named by the column that this one
is looked up under.

* `ShortForm` — the short forms that take conditions.
* `Conditions.reaches` — a statement compares a condition.
* `ShortForm.issues_run` — the statements that a short form sends, besides introspection.
-/

namespace TableOps

/-! ## Conditions in a statement -/

namespace Conditions

/-- A statement of some kind compares a condition: one of the conditions is named by the column
that the statement looks this one up under. -/
def reaches (kind : StatementKind) (table : TableRef) (conditions : Value) (l : Leaf) : Bool :=
  (l.effective? kind table).any fun l' => (leaves conditions).any fun m => m.name == l'.column

/-- The leaves of conditions that a statement compares. -/
def compared (kind : StatementKind) (table : TableRef) (conditions : Value) : List Leaf :=
  (leaves conditions).filter (reaches kind table conditions)

/-- In the query of conditions a leaf is found when one of the conditions has the name. -/
theorem reaches_eq {name conditions : Value} {f : Option Filter} {query : Entries Value}
    (h : (Filter.ofConditions name conditions).run.run [] = (.ok f, query))
    (kind : StatementKind) (table : TableRef) :
    Leaf.reaches kind table query = reaches kind table conditions := by
  have hnames := (Filter.leaves_ofConditions h).2
  have hhas : ∀ key, query.has key = (leaves conditions).any fun m => m.name == key := by
    intro key
    rw [Bool.eq_iff_iff, hnames, List.mem_map, List.any_eq_true]
    simp only [beq_iff_eq]
  funext l
  unfold Leaf.reaches reaches
  simp only [hhas]

/-- A statement composed for conditions is restricted to those that it compares. -/
theorem restrictedTo_compared {name conditions : Value} {query : Entries Value} {d : Dialect}
    {r : Request} {kind : StatementKind} {s : Statement}
    (h : (Filter.ofConditions name conditions).run.run [] = (.ok r.expression.filter, query))
    (hquery : r.query = query) (hs : r.Composed d kind s) :
    s.RestrictedTo kind r.expression.table (compared kind r.expression.table conditions) := by
  have hrestricted := hs.restrictedTo
  rw [hquery, reaches_eq h, (Filter.leaves_ofConditions h).1] at hrestricted
  exact hrestricted

/-- All conditions are compared exactly when each of them is. -/
theorem compared_eq_iff {kind : StatementKind} {table : TableRef} {conditions : Value} :
    compared kind table conditions = leaves conditions ↔
      ∀ l ∈ leaves conditions, reaches kind table conditions l :=
  List.filter_eq_self

end Conditions

/-- A schema leaves the table of an expression, and its filter when it has one. -/
theorem table_filter_of_autoFill {c : Command} {e e' : Expression} {schema : TableSchema}
    (hfilter : e.filter ≠ none) (h : autoFill c e schema = .ok e') :
    e'.table = e.table ∧ e'.filter = e.filter := by
  obtain ⟨columns, hcolumns, h⟩ := ok_of_bind h
  cases h
  refine ⟨rfl, ?_⟩
  cases hf : e.filter with
  | none => exact absurd hf hfilter
  | some f => simp [Expression.derive, hf]

/-! ## Short forms -/

/-- A short form of a command that takes conditions. -/
inductive ShortForm where
  | query
  | list (range : Value)
  | update (data : Value)
  | delete

namespace ShortForm

open Session

/-- Runs a short form on a table. -/
def run (short : ShortForm) (table conditions : Value) (overrides : Entries Value) :
    SessionM Outcome :=
  match short with
  | .query => queryTable table conditions overrides
  | .list range => listTable table conditions range overrides
  | .update data => updateTable table data conditions overrides
  | .delete => deleteFrom table conditions overrides

/-- The operation of a short form. -/
def operation : ShortForm → Operation
  | .query => .query
  | .list _ => .list
  | .update _ => .update
  | .delete => .delete

/-- The members of the command of a short form. -/
def members (query : Entries Value) : ShortForm → Entries Value
  | .query => [("query", .map query)]
  | .list range => [("query", .map query), ("range", range)]
  | .update data => [("data", data), ("query", .map query)]
  | .delete => [("query", .map query)]

/-- A short form asks for statements of this kind: its own, and a list also for its total. -/
def Asks (short : ShortForm) (kind : StatementKind) : Prop :=
  kind = .of short.operation ∨ short.operation = .list ∧ kind = .total

theorem run_eq (short : ShortForm) (table conditions : Value) (overrides : Entries Value) :
    short.run table conditions overrides = (do
      let (e, values) ← SessionM.ofExcept (conditioned table conditions)
      runOn short.operation e (short.members values) overrides) := by
  cases short <;> rfl

theorem eq_query_of_fullName {name : String} (h : Command.fullName name = "query") :
    name = "query" := by
  unfold Command.fullName at h
  split at h
  case h_7 => exact h
  all_goals simp at h

/-- The members of a short form replace neither its operation nor its expression. -/
theorem kept_of_members (short : ShortForm) (query : Entries Value) {overrides : Entries Value}
    (hkept : ∀ name v, (name, v) ∈ overrides →
      Command.fullName name ≠ "operation" ∧ Command.fullName name ≠ "expression") :
    ∀ name v, (name, v) ∈ (short.members query ++ overrides).erase "registry" →
      Command.fullName name ≠ "operation" ∧ Command.fullName name ≠ "expression" := by
  intro name v hmem
  rcases List.mem_append.mp (Entries.mem_erase hmem) with hmem | hmem
  · have hname : name = "query" ∨ name = "range" ∨ name = "data" := by
      cases short <;> simp only [members, List.mem_cons, Prod.mk.injEq, List.not_mem_nil,
        or_false] at hmem <;> tauto
    rcases hname with rfl | rfl | rfl <;> decide
  · exact hkept name v hmem

/-- The members of a short form and what may be given beside them agree on the query. -/
theorem only_query (short : ShortForm) (query : Entries Value) {overrides : Entries Value}
    (h : ¬ overrides.any fun (name, _) => Entries.has (short.members query) name) :
    Entries.Only (((short.members query ++ overrides).erase "registry").map
      fun (name, v) => (Command.fullName name, v)) "query" (.map query) := by
  have hown : Entries.get? (short.members query) "query" = some (.map query) := by
    cases short <;> simp [members]
  constructor
  · have hget : Entries.get? ((short.members query ++ overrides).erase "registry") "query" =
        some (.map query) := by
      rw [Entries.get?_erase_of_ne (by decide), Entries.get?_append, hown, Option.some_or]
    exact ⟨_, List.mem_map_of_mem (Entries.mem_of_get? hget)⟩
  · intro w hw
    obtain ⟨⟨name, v⟩, hmem, heq⟩ := List.mem_map.mp hw
    rw [Prod.mk.injEq] at heq
    obtain ⟨hname, rfl⟩ := heq
    have hquery := eq_query_of_fullName hname
    subst hquery
    rcases List.mem_append.mp (Entries.mem_erase hmem) with hmem | hmem
    · cases short <;> simpa [members] using hmem
    · -- a second value for the query was refused
      refine absurd (List.any_eq_true.mpr ⟨_, hmem, ?_⟩) h
      simp [Entries.has, hown]

end ShortForm

namespace Session

/-- Sharing an expression adds it under the number that is yielded. -/
theorem run_share (e : Expression) (s : Session) :
    ∃ id x s', (share e).run s = (id, s') ∧ s'.shared? id = some x ∧
      x.toDraft = .ofExpression e ∧ s'.server = s.server := by
  refine ⟨_, ⟨.ofExpression e, ⟨s.caches.length⟩⟩, _, rfl, ?_, rfl, rfl⟩
  simp [shared?]

/-- A shared expression is found, and finding it leaves the session as it is. -/
theorem run_resolve_shared {s : Session} {id : ExpressionId} {x : SharedExpression}
    (h : s.shared? id = some x) :
    ((resolve (.shared id)).run.run s).2 = s ∧
      ∀ found s', (resolve (.shared id)).run.run s = (.ok found, s') → found.1 = x := by
  constructor
  · have hC : Chained fun s s' : Session => s' = s := ⟨fun s => rfl, fun hst htu => htu.trans hst⟩
    have hwithin : Within (fun s s' => s' = s) (resolve (.shared id)).run := by
      unfold resolve
      refine .run_bind hC (.run_get hC) fun s => ?_
      split
      · refine .run_bind hC (.run_ofExcept hC _) fun name => ?_
        exact .run_bind hC (.run_lookup hC _) fun d => .run_pure hC _
      · exact .run_throw hC _
    exact hwithin s
  · intro found s' hrun
    unfold resolve at hrun
    obtain ⟨s₁, s₂, hget, hrun⟩ := ok_of_run_bind hrun
    cases hget
    simp only [h] at hrun
    obtain ⟨name, s₃, hname, hrun⟩ := ok_of_run_bind hrun
    obtain ⟨d, s₄, hlookup, hrun⟩ := ok_of_run_bind hrun
    cases hrun
    rfl

/-- A command that names a shared expression sends introspection and the statements of its request,
whichever schema fills the expression in. -/
theorem execute_shared_at {R : Session → Session → Prop} {allowed : Value → Prop}
    (H : CallEffects R allowed) (hI : ∀ st, IsIntrospection st → allowed st) {c : Command}
    {id : ExpressionId} {e : Expression} {x : SharedExpression} {s : Session}
    (htarget : c.target = .shared id) (hshared : s.shared? id = some x)
    (hx : x.toDraft = .ofExpression e)
    (hp : ∀ e' schema cache d r fs, (e' = e ∨ ∃ given, autoFill c e given = .ok e') →
      CallEffects.Sends allowed
        (.ofRequest c { c.request e' with schema := schema } cache d r fs)) :
    R s ((execute c).run.run s).2 := by
  have hC := H.toChained
  unfold execute executePatched
  refine Within.run_bind_at hC (hC.refl s) fun target s₁ htarget' => ?_
  have hgiven : (Except.ok c.target, s) = (Except.ok target, s₁) := htarget'
  rw [htarget] at hgiven
  cases hgiven
  obtain ⟨hstate, hfound⟩ := run_resolve_shared hshared
  refine Within.run_bind_at hC ?_ fun found s₂ hresolve => ?_
  · rw [hstate]
    exact hC.refl s
  · obtain ⟨found, d⟩ := found
    have hsame := hfound _ _ hresolve
    subst hsame
    refine Within.run_bind hC (H.announce _ _ _ d) (fun _ => ?_) s₂
    refine H.onRoute d _ fun r => ?_
    split
    · have he : found.expression = e := by rw [hx]; rfl
      rw [he]
      exact H.executeOn hI (fun e' schema d' fs he' => hp e' schema _ d' r fs he') d
    · rename_i hunread
      rw [hx] at hunread
      exact absurd rfl hunread

end Session

namespace ShortForm

open Session

/-- A statement of a short form that compares what it can of some conditions: all of them when each
one is compared, and none when none is, in which case it has no clause. -/
def Answers (short : ShortForm) (table : TableRef) (conditions : Value) (sent : Value) : Prop :=
  ∃ (d : Dialect) (kind : StatementKind) (s : Statement),
    short.Asks kind ∧ sent = .text (d.render s) ∧
    s.RestrictedTo kind table (Conditions.compared kind table conditions) ∧
    (Conditions.compared kind table conditions = Conditions.leaves conditions ↔
      ∀ l ∈ Conditions.leaves conditions, Conditions.reaches kind table conditions l) ∧
    (Statement.whereWord ∈ s ↔
      ∃ l ∈ Conditions.leaves conditions, Conditions.reaches kind table conditions l)

/-- A statement that is composed for the filter and the query of conditions answers them. -/
theorem answers_of_composed {short : ShortForm} {name conditions : Value} {query : Entries Value}
    {d : Dialect} {kind : StatementKind} {r : Request} {s : Statement} (hkind : short.Asks kind)
    (h : (Filter.ofConditions name conditions).run.run [] = (.ok r.expression.filter, query))
    (hquery : r.query = query) (hs : r.Composed d kind s) :
    short.Answers r.expression.table conditions (.text (d.render s)) := by
  have hrestricted := Conditions.restrictedTo_compared h hquery hs
  refine ⟨d, kind, s, hkind, rfl, hrestricted, Conditions.compared_eq_iff, ?_⟩
  rw [hrestricted.whereWord_mem_iff, Conditions.compared, ne_eq, List.filter_eq_nil_iff]
  simp only [not_forall, not_not, exists_prop]

/-- The filter and the query of conditions that are accepted. -/
theorem filter_of_conditioned {table conditions : Value} {e : Expression} {query : Entries Value}
    (h : conditioned table conditions = .ok (e, query)) :
    (Filter.ofConditions (.text "and") conditions).run.run [] = (.ok e.filter, query) := by
  unfold conditioned at h
  obtain ⟨e₀, he₀, h⟩ := ok_of_bind h
  cases hrun : (Filter.ofConditions (.text "and") conditions).run.run [] with
  | mk r query' =>
    rw [hrun] at h
    cases r with
    | ok f =>
      injection h with h
      injection h with hexpression hquery
      rw [← hexpression, ← hquery]
    | error f => cases h

/-- The command of a short form may be composed to statements that answer its conditions only,
whichever schema fills its expression in. -/
theorem sends_of_command {short : ShortForm} {conditions : Value} {e e' : Expression}
    {query : Entries Value} {c : Command} (hoperation : c.operation = short.operation)
    (hquery : c.query = query)
    (hfilter : (Filter.ofConditions (.text "and") conditions).run.run [] = (.ok e.filter, query))
    (hsome : Conditions.leaves conditions ≠ [])
    (he : e' = e ∨ ∃ given, autoFill c e given = .ok e') (schema : Option TableSchema)
    (cache : CacheId) (d : Dialect) (r : Route) (fs : Functions) :
    CallEffects.Sends (fun sent => IsIntrospection sent ∨ short.Answers e.table conditions sent)
      (.ofRequest c { c.request e' with schema := schema } cache d r fs) := by
  have hnonempty : e.filter ≠ none := by
    intro hnone
    rw [hnone] at hfilter
    exact hsome (Filter.leaves_ofConditions hfilter).1.symm
  -- a filter that is there is never derived from a schema
  have hkept : e'.table = e.table ∧ e'.filter = e.filter := by
    rcases he with rfl | ⟨given, hfill⟩
    · exact ⟨rfl, rfl⟩
    · exact table_filter_of_autoFill hnonempty hfill
  intro kind withTotal s hasks hs
  have hkind : short.Asks kind := by
    rcases hasks with hown | ⟨hlist, htotal⟩
    · injection hown with hown
      exact Or.inl (by rw [← hown, hoperation])
    · injection hlist with hlist
      injection hlist with hlist
      exact Or.inr ⟨hoperation ▸ hlist, htotal⟩
  have hcomposed := Statement.composed_of_compose hs
  rw [← hkept.2] at hfilter
  have hanswers := answers_of_composed hkind hfilter hquery hcomposed
  rw [← hkept.1]
  exact Or.inr hanswers

/-- Besides introspection a short form with conditions sends only statements that answer them. -/
theorem issues_run (short : ShortForm) {table conditions : Value} {overrides : Entries Value}
    (hkept : ∀ name v, (name, v) ∈ overrides →
      Command.fullName name ≠ "operation" ∧ Command.fullName name ≠ "expression")
    {e : Expression} {query : Entries Value}
    (h : conditioned table conditions = .ok (e, query))
    (hsome : Conditions.leaves conditions ≠ []) :
    Within (Issues fun sent => IsIntrospection sent ∨ short.Answers e.table conditions sent)
      (short.run table conditions overrides).run := by
  have H := (issues_stepEffects fun sent =>
    IsIntrospection sent ∨ short.Answers e.table conditions sent).callEffects
  have hC := H.toChained
  have hfilter := filter_of_conditioned h
  rw [run_eq, h]
  intro s
  refine Within.run_bind_at hC (hC.refl s) fun found s₁ hfound => ?_
  cases hfound
  unfold runOn
  dsimp only
  split
  · exact hC.refl s
  · rename_i hrefused
    obtain ⟨id, x, s₂, hshare, hshared, hx, hserver⟩ := run_share e s
    have hrun : (SessionM.lift (share e)).run.run s = (.ok id, s₂) := by
      rw [SessionM.lift, ExceptT.run_lift, StateT.run_map, hshare]
      rfl
    refine Within.run_bind_at hC ?_ fun id' s₃ hid => ?_
    · rw [hrun]
      exact issues_of_eq (congrArg Server.events hserver)
    · rw [hrun] at hid
      cases hid
      -- the rest is the command that names the shared expression
      unfold executeValue
      refine Within.run_bind_at hC (hC.refl _) fun _ s₄ hoverrides => ?_
      obtain rfl : s₂ = s₄ := congrArg Prod.snd hoverrides
      refine Within.run_bind_at hC (hC.refl _) fun c s₅ hc => ?_
      obtain rfl : s₂ = s₅ := congrArg Prod.snd hc
      refine Within.run_bind_at hC (hC.refl _) fun _ s₆ hregistry => ?_
      obtain rfl : s₂ = s₆ := congrArg Prod.snd hregistry
      obtain ⟨hoperation, htarget, hquery⟩ := Command.ofValue_short
        (kept_of_members short query hkept) (only_query short query hrefused)
        (congrArg Prod.fst hc)
      refine execute_shared_at H (fun _ => Or.inl) htarget hshared hx ?_
      intro e' schema cache d r fs he
      exact sends_of_command hoperation hquery hfilter hsome he schema cache d r fs

/-- A list of rows that meet nested conditions, beside a member that leaves the command alone. -/
theorem issues_run_nested :
    ∃ conditions e query, conditions = .map [("name", .text "Jane"),
        ("or", .map [("age", .map [("op", .text ">"), ("value", .int 21)]),
          ("addr", .map [("op", .text "IS NULL")])])] ∧
      conditioned (.text "Person") conditions = .ok (e, query) ∧
      Within (Issues fun sent => IsIntrospection sent ∨
          (ShortForm.list .null).Answers e.table conditions sent)
        ((ShortForm.list .null).run (.text "Person") conditions [("debug", .bool true)]).run := by
  have haccepted : (conditioned (.text "Person") (.map [("name", .text "Jane"),
      ("or", .map [("age", .map [("op", .text ">"), ("value", .int 21)]),
        ("addr", .map [("op", .text "IS NULL")])])])).toOption.isSome := by
    decide +kernel
  obtain ⟨⟨e, query⟩, h⟩ := exists_ok_of_isSome haccepted
  refine ⟨_, e, query, rfl, h, issues_run (.list .null) ?_ h (by decide +kernel)⟩
  intro name v hmem
  rw [List.mem_singleton, Prod.mk.injEq] at hmem
  rw [hmem.1]
  decide

/-- A condition whose column is qualified by its own table is not found again under the column alone,
so that the deletion which it restricts removes every row. -/
theorem deleteFrom_qualified_unrestricted :
    (((deleteFrom (.text "Person") (.map [("Person.name", .text "x")]) []).run.run
      ((install ⟨"shop", .standard .mysql, .factory, 1, [], [], false, none⟩ none).run
        (.empty .empty)).2).2.server.events.filterMap fun e => match e with
          | .executed _ (.text sent) _ => some sent
          | _ => none) = ["DELETE FROM `Person`"] := by
  decide +kernel

end ShortForm

end TableOps
