import TensorArena.Compile.Basic
import TensorArena.Proofs.Program.Emission
import TensorArena.Proofs.Program.Rendering

/-!
# Completeness of compilation

A compilation succeeds exactly when all its stages do. Once a graph is planned and its instances
are shared, the stages that are left cannot fail.
-/

set_option autoImplicit false

namespace TensorArena.Graph

/-- The unit from which a compilation renders its source. -/
def sourceUnit (graph : Graph) (catalog : Catalog) (settings : Settings) (plan : Plan)
    (table : InstanceTable) : SourceUnit :=
  { graph, plan, table, catalog, settings, fingerprint := graph.fingerprint }

/-- The stages of a successful compilation. -/
structure Compiled (graph : Graph) (catalog : Catalog) (settings : Settings) (model : Model) :
    Prop where
  settled : settings.validate = .ok ()
  valid : graph.validate = .ok ()
  analysed : graph.lifetimes = .ok model.lifetimes
  planned : graph.plan model.lifetimes settings.arenaOptions = .ok model.plan
  verified : model.plan.verify = .ok ()
  shared : graph.shareInstances catalog = .ok model.table
  assembled : graph.assemble model.plan model.table settings.batching = .ok model.steps
  replayed : ∃ context, graph.replay model.plan model.table model.steps = .ok context
  rendered : (graph.sourceUnit catalog settings model.plan model.table).render model.steps =
    .ok model.source
  sameGraph : model.graph = graph
  name : model.name = (graph.sourceUnit catalog settings model.plan model.table).modelName
  fingerprint : model.fingerprint = graph.fingerprint

theorem compile_eq_ok_iff {graph : Graph} {catalog : Catalog} {settings : Settings}
    {model : Model} :
    graph.compile catalog settings = .ok model ↔ graph.Compiled catalog settings model := by
  unfold compile
  constructor
  · intro success
    obtain ⟨settled, success⟩ := check_bind_eq_ok.mp success
    obtain ⟨valid, success⟩ := check_bind_eq_ok.mp success
    obtain ⟨lifetimes, analysed, success⟩ := bind_eq_ok.mp success
    obtain ⟨plan, planned, success⟩ := bind_eq_ok.mp success
    obtain ⟨verified, success⟩ := check_bind_eq_ok.mp success
    obtain ⟨table, shared, success⟩ := bind_eq_ok.mp success
    obtain ⟨steps, assembled, success⟩ := bind_eq_ok.mp success
    obtain ⟨context, replayed, success⟩ := bind_eq_ok.mp success
    obtain ⟨source, rendered, success⟩ := bind_eq_ok.mp success
    obtain rfl := pure_eq_ok.mp success
    exact ⟨mapError_eq_ok.mp settled, mapError_eq_ok.mp valid, mapError_eq_ok.mp analysed,
      mapError_eq_ok.mp planned, mapError_eq_ok.mp verified, mapError_eq_ok.mp shared,
      mapError_eq_ok.mp assembled, ⟨context, mapError_eq_ok.mp replayed⟩,
      mapError_eq_ok.mp rendered, rfl, rfl, by dsimp only⟩
  · rintro ⟨settled, valid, analysed, planned, verified, shared, assembled, ⟨context, replayed⟩,
      rendered, isGraph, isName, isFingerprint⟩
    rw [mapError_eq_ok.mpr settled, ok_bind, mapError_eq_ok.mpr valid, ok_bind,
      mapError_eq_ok.mpr analysed, ok_bind, mapError_eq_ok.mpr planned, ok_bind,
      mapError_eq_ok.mpr verified, ok_bind, mapError_eq_ok.mpr shared, ok_bind,
      mapError_eq_ok.mpr assembled, ok_bind, mapError_eq_ok.mpr replayed, ok_bind]
    unfold sourceUnit at rendered isName
    dsimp only
    rw [mapError_eq_ok.mpr rendered, ok_bind, ← isName]
    obtain ⟨name, fingerprint, other, lifetimes, plan, table, steps, source⟩ := model
    obtain rfl : other = graph := isGraph
    obtain rfl : fingerprint = other.fingerprint := isFingerprint
    rfl

/-- The stages after planning and sharing all succeed. -/
theorem exists_compiled {graph : Graph} {catalog : Catalog} {settings : Settings}
    {lifetimes : Lifetimes} {plan : Plan} {table : InstanceTable}
    (settled : settings.validate = .ok ()) (valid : graph.validate = .ok ())
    (analysed : graph.lifetimes = .ok lifetimes)
    (planned : graph.plan lifetimes settings.arenaOptions = .ok plan)
    (shared : graph.shareInstances catalog = .ok table) :
    ∃ model, graph.Compiled catalog settings model ∧ model.lifetimes = lifetimes ∧
      model.plan = plan ∧ model.table = table ∧
      ∃ context, graph.replay plan table model.steps = .ok context ∧
        context.phase = .terminated ∧ context.tensors = [] ∧ context.queue = [] := by
  obtain ⟨distinct, declared⟩ := validate_eq_ok valid
  have serves := shareInstances_eq_ok shared
  have whole := Planned.of_eq_ok analysed planned
  have sound : Launch.Sound settings.arenaOptions catalog
      ⟨graph, lifetimes, plan, table, fun _ symbol => .idle Unit symbol, ()⟩ :=
    ⟨whole, serves, fun _ _ _ _ _ => rfl⟩
  obtain ⟨steps, assembled, refers, context, replayed, tensors, queue, phase, _, _⟩ :=
    Launch.assemble_executes sound distinct declared settings.batching
  obtain ⟨source, rendered⟩ :
      ∃ source, (graph.sourceUnit catalog settings plan table).render steps = .ok source :=
    SourceUnit.render_eq_ok whole serves refers
  refine ⟨⟨(graph.sourceUnit catalog settings plan table).modelName, graph.fingerprint, graph,
    lifetimes, plan, table, steps, source⟩, ?_, rfl, rfl, rfl, context, replayed, phase, tensors,
    queue⟩
  exact ⟨settled, valid, analysed, planned, whole.fits.verify whole.exact, shared, assembled,
    ⟨context, replayed⟩, rendered, rfl, rfl, by dsimp only⟩

/-- The late stages of a compilation never fail. When the settings and the graph are valid, and the
graph is analysed, planned and given its instances, then the plan passes its check, the program is
assembled and its replay ends with nothing registered and nothing queued, and the source is
rendered. -/
theorem compile_complete (graph : Graph) (catalog : Catalog) (settings : Settings)
    (lifetimes : Lifetimes) (plan : Plan) (table : InstanceTable)
    (settled : settings.validate = .ok ()) (valid : graph.validate = .ok ())
    (analysed : graph.lifetimes = .ok lifetimes)
    (planned : graph.plan lifetimes settings.arenaOptions = .ok plan)
    (shared : graph.shareInstances catalog = .ok table) :
    ∃ model, graph.compile catalog settings = .ok model ∧ plan.verify = .ok () ∧
      graph.assemble plan table settings.batching = .ok model.steps ∧
      (∃ context, graph.replay plan table model.steps = .ok context ∧
        context.phase = .terminated ∧ context.tensors = [] ∧ context.queue = []) ∧
      (graph.sourceUnit catalog settings plan table).render model.steps = .ok model.source := by
  obtain ⟨model, compiled, rfl, rfl, rfl, replayed⟩ :=
    exists_compiled settled valid analysed planned shared
  exact ⟨model, compile_eq_ok_iff.mpr compiled, compiled.verified, compiled.assembled, replayed,
    compiled.rendered⟩

theorem relay_compile_complete :
    ∃ lifetimes plan table, Settings.validate {} = .ok () ∧ relay.validate = .ok () ∧
      relay.lifetimes = .ok lifetimes ∧ relay.plan lifetimes {} = .ok plan ∧
      relay.shareInstances .standard = .ok table ∧
      ∃ model, relay.compile .standard {} = .ok model := by
  refine ⟨_, _, _, rfl, rfl, rfl, rfl, rfl, ?_⟩
  obtain ⟨model, compiled, _⟩ :=
    compile_complete relay .standard {} _ _ _ rfl rfl rfl rfl rfl
  exact ⟨model, compiled⟩

end TensorArena.Graph
