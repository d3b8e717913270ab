import SqlTree.CommandLine.Run
import SqlTree.Proofs.Database.HandlePaths
import SqlTree.Proofs.Pass.Shipped

/-!
# Dry runs

A dry run shows a statement as the dialect of the configuration writes it, and asks for neither a
URL nor a driver.  A handle on the configured database has that dialect, so a dry run fails where
the handle cannot compile; what it shows is what the handle sends, if no plugin is configured
(`CommandLine.exec_dryRun`).
-/

namespace SqlTree

open Plugin (Shipped)

namespace Config

variable (c : Config)

/-- The handle on the configured database, whose driver may answer anything. -/
def handle : Except Error (Database Paths) := c.connect (fun _ => Paths.driver) fun _ => pure ()

/-- Who uses that handle, if the driver is of dialect `d`. -/
def party (d : Dialect) : Party where
  dialect := d
  levels := if (c.log.getD []).isEmpty then none else some (c.log.getD [])
  plugins := c.plugins

/-- The configured plugins, all of which are shipped. -/
def shipped : List Shipped :=
  c.schema.toList.map .withSchema ++ if c.camelCase then [.camelCase {}] else []

theorem plugins_eq_map_shipped : c.plugins = c.shipped.map Shipped.plugin := by
  have hschema : c.schema.toList.map Plugin.withSchema =
      (c.schema.toList.map Shipped.withSchema).map Shipped.plugin := by
    rw [List.map_map]
    rfl
  rw [plugins, shipped, List.map_append, hschema]
  cases c.camelCase <;> rfl

variable {c}

/-- The dialect of the driver is that of the URL, if nothing speaks against it. -/
theorem driverDialect_eq_ok_iff {d : Dialect} :
    c.driverDialect = .ok d ↔
      ∃ u, c.databaseUrl = some u ∧ Dialect.ofUrl u = .ok d ∧ d.hasDriver = true ∧
        (c.dialect = none ∨ c.dialect = some d) := by
  unfold driverDialect requireUrl
  cases c.databaseUrl with
  | none => simp [bind, Except.bind]
  | some u =>
    cases hu : Dialect.ofUrl u with
    | error e => simp [bind, Except.bind, hu]
    | ok d' =>
      cases hd : d'.hasDriver with
      | false =>
        have hne : d' = d → d.hasDriver = false := fun h => h ▸ hd
        simp [bind, Except.bind, hu, hd]
        grind
      | true =>
        cases hc : c.dialect with
        | none =>
          simp [bind, Except.bind, hu, hd, pure, Except.pure]
          grind
        | some d'' =>
          simp [bind, Except.bind, hu, hd, pure, Except.pure, throw, throwThe, MonadExceptOf.throw]
          split <;> grind

/-- A configuration with a driver resolves to the dialect of the driver. -/
theorem resolvedDialect_of_driverDialect {d : Dialect} (h : c.driverDialect = .ok d) :
    c.resolvedDialect = .ok d := by
  obtain ⟨u, hurl, hof, -, hdialect | hdialect⟩ := driverDialect_eq_ok_iff.mp h
  · simp only [resolvedDialect, hurl, hdialect, hof]
  · simp only [resolvedDialect, hdialect]

theorem handle_of_driverDialect {d : Dialect} (h : c.driverDialect = .ok d) :
    c.handle = .ok ((c.party d).handle .pool) := by
  unfold handle connect
  rw [h]
  refine congrArg Except.ok ?_
  simp only [Database.of, Party.handle, party, Log.of?, Party.driver]
  split <;> rfl

theorem handle_eq_ok {db : Database Paths} (h : c.handle = .ok db) :
    ∃ d, c.driverDialect = .ok d ∧ db = (c.party d).handle .pool := by
  cases hd : c.driverDialect with
  | error e =>
    unfold handle connect at h
    rw [hd] at h
    cases h
  | ok d => exact ⟨d, rfl, Except.ok.inj (h.symm.trans (handle_of_driverDialect hd))⟩

/-- Shipped plugins change no failure, so a handle compiles what can be compiled without them. -/
theorem exists_compile_handle_iff (d : Dialect) {n : Node} (hw : n.wellFormed = true) :
    (∃ q, ((c.party d).handle .pool).compile n = .ok q) ↔ ∃ q, n.compile d = .ok q := by
  obtain ⟨m, hwith, hwell, halike⟩ := Plugin.compileWith_alike c.shipped d hw
  have hcompile : ((c.party d).handle .pool).compile n = m.compile d := by
    rw [← hwith, ← c.plugins_eq_map_shipped]
    rfl
  rw [hcompile, ← halike.exists_compile_iff hw hwell]

theorem compile_party (hschema : c.schema = none) (hcamel : c.camelCase = false) (d : Dialect)
    (n : Node) : (c.party d).compile n = n.compile d := by
  have hplugins : c.plugins = [] := by
    simp [plugins, hschema, hcamel]
  show Plugin.compileWith (M := Except Error) c.plugins d n = _
  rw [hplugins]
  rfl

end Config

namespace CommandLine

/-- The configuration of a command: the one that is loaded, with the URL that is given. -/
def configured (s : Surroundings) (o : ExecOptions) : Except Failure Config := do
  let c ← loadConfig s o.config
  return { c with databaseUrl := o.databaseUrl.or c.databaseUrl }

/-- What a dry run prints. -/
def dryRun (s : Surroundings) (o : ExecOptions) : Except Failure String :=
  exec s { o with dryRun := true }

theorem readTree_input {s : Surroundings} {n : Node} (h : tree? s.input = some n) :
    readTree s "-" = .ok n := by
  have hinput : readInput s "-" = .ok s.input := if_pos rfl
  unfold readTree
  simp only [hinput, bind, Except.bind, h]
  rfl

theorem dryRun_eq {s : Surroundings} {o : ExecOptions} {n : Node} {c : Config}
    (hn : readTree s o.input = .ok n) (hc : configured s o = .ok c) :
    dryRun s o = (lifted c.resolvedDialect).bind fun d =>
      (lifted (n.compile d)).bind fun q => .ok (joinLines (statementLines q)) := by
  unfold dryRun exec
  unfold configured at hc
  cases hload : loadConfig s o.config with
  | error e =>
    rw [hload] at hc
    cases hc
  | ok c' =>
    rw [hload] at hc
    obtain rfl := Except.ok.inj hc
    simp only [hn]
    rfl

theorem dryRun_eq_ok_iff {s : Surroundings} {o : ExecOptions} {n : Node} {c : Config}
    (hn : readTree s o.input = .ok n) (hc : configured s o = .ok c) (text : String) :
    dryRun s o = .ok text ↔ ∃ d q, c.resolvedDialect = .ok d ∧ n.compile d = .ok q ∧
      text = joinLines (statementLines q) := by
  rw [dryRun_eq hn hc]
  cases hd : c.resolvedDialect with
  | error e => simp [lifted, Except.bind]
  | ok d =>
    cases hq : n.compile d with
    | error e => simp [lifted, Except.bind, hq]
    | ok q => simp [lifted, Except.bind, hq, eq_comm]

/-- A dry run prints a statement exactly if the configuration resolves to a dialect and the dialect
can express the statement.  Where there is a handle, that has the same dialect, and compiles what is
printed or fails as the dry run does; without plugins it sends what is printed. -/
theorem exec_dryRun {s : Surroundings} {o : ExecOptions} {n : Node} {c : Config}
    (hn : readTree s o.input = .ok n) (hc : configured s o = .ok c) (hw : n.wellFormed = true) :
    (∀ text, dryRun s o = .ok text ↔ ∃ d q, c.resolvedDialect = .ok d ∧ n.compile d = .ok q ∧
      text = joinLines (statementLines q)) ∧
      ∀ db, c.handle = .ok db →
        c.resolvedDialect = .ok db.dialect ∧
        ((∃ text, dryRun s o = .ok text) ↔ ∃ q, db.compile n = .ok q) ∧
        (c.schema = none → c.camelCase = false → ∀ {v w acts r}, (db.run n).Does v acts r w →
          (∃ e, dryRun s o = .error (.error e) ∧ acts = [] ∧ r = .error e) ∨
            ∃ q calls opened, dryRun s o = .ok (joinLines (statementLines q)) ∧
              Opens v.initialized calls opened ∧
              ((∃ e, opened = .error e ∧ acts = calls.map .call ∧ r = .error e) ∨
                ∃ k a, opened = .ok k ∧
                  acts = calls.map .call ++ [.call (.execute k q a), .call (.release k)])) := by
  have hprints := dryRun_eq_ok_iff hn hc
  refine ⟨hprints, fun db hdb => ?_⟩
  obtain ⟨d, hd, rfl⟩ := Config.handle_eq_ok hdb
  have hresolved := Config.resolvedDialect_of_driverDialect hd
  have hdry : dryRun s o =
      (lifted (n.compile d)).bind fun q => .ok (joinLines (statementLines q)) := by
    rw [dryRun_eq hn hc, hresolved]
    rfl
  refine ⟨hresolved, ?_, ?_⟩
  · rw [Config.exists_compile_handle_iff d hw]
    constructor
    · rintro ⟨text, htext⟩
      obtain ⟨d', q, hd', hq, -⟩ := (hprints text).mp htext
      obtain rfl := Except.ok.inj (hresolved.symm.trans hd')
      exact ⟨q, hq⟩
    · rintro ⟨q, hq⟩
      exact ⟨_, (hprints _).mpr ⟨d, q, hresolved, hq, rfl⟩⟩
  · intro hschema hcamel v w acts r hdoes
    have hcompile := Config.compile_party hschema hcamel d n
    obtain ⟨e, he, hacts, hr⟩ | ⟨q, calls, opened, hq, hopens, hend⟩ :=
      Database.does_run_pool _ hdoes
    · rw [hcompile] at he
      exact .inl ⟨e, by rw [hdry, he]; rfl, hacts, hr⟩
    · rw [hcompile] at hq
      refine .inr ⟨q, calls, opened, by rw [hdry, hq]; rfl, hopens, ?_⟩
      obtain hfailed | ⟨k, a, hk, -, hacts⟩ := hend
      · exact .inl hfailed
      · exact .inr ⟨k, a, hk, hacts⟩

/-- A select without tables, as a document. -/
def selectDocument : String :=
  "\x7b\"kind\":\"SelectQuery\",\"node\":\x7b\"selections\":[\x7b\"selection\":" ++
    "\x7b\"kind\":\"SelectAll\",\"node\":null\x7d\x7d]\x7d\x7d"

def selectNode : Node := ⟨.selectQuery { selections := [⟨.selection ⟨.selectAll⟩⟩] }⟩

theorem tree?_selectDocument : tree? selectDocument = some selectNode := by rfl

theorem compile_selectNode (d : Dialect) :
    selectNode.compile d = .ok ⟨selectNode, "select *", []⟩ := by
  cases d <;> rfl

theorem statementLines_selectNode :
    joinLines (statementLines ⟨selectNode, "select *", []⟩) = "select *\n" := by rfl

/-- The select on a database of its own, which prints what it sends. -/
theorem exec_dryRun_sqlite :
    let s : Surroundings := { input := selectDocument, file := fun _ => .error "" }
    let o : ExecOptions := ⟨"-", some "sqlite::memory:", none, true, .table⟩
    ∃ n c db, readTree s o.input = .ok n ∧ configured s o = .ok c ∧ n.wellFormed = true ∧
      c.handle = .ok db ∧ dryRun s o = .ok "select *\n" ∧ (∃ q, db.compile n = .ok q) ∧
      ∀ {v w acts r}, (db.run n).Does v acts r w →
        ∃ q calls opened, joinLines (statementLines q) = "select *\n" ∧
          Opens v.initialized calls opened ∧
          ((∃ e, opened = .error e ∧ acts = calls.map .call ∧ r = .error e) ∨
            ∃ k a, opened = .ok k ∧
              acts = calls.map .call ++ [.call (.execute k q a), .call (.release k)]) := by
  intro s o
  have hd : Config.driverDialect { databaseUrl := some "sqlite::memory:" } = .ok .sqlite := by rfl
  have hn : readTree s o.input = .ok selectNode := readTree_input tree?_selectDocument
  have hc : configured s o = .ok { databaseUrl := some "sqlite::memory:" } := rfl
  have hw : selectNode.wellFormed = true := by decide
  have hdb := Config.handle_of_driverDialect hd
  obtain ⟨hprints, hhandle⟩ := exec_dryRun hn hc hw
  obtain ⟨hresolved, hiff, hsends⟩ := hhandle _ hdb
  have hdry : dryRun s o = .ok "select *\n" := by
    refine (hprints _).mpr ⟨_, _, hresolved, compile_selectNode _, ?_⟩
    exact statementLines_selectNode.symm
  refine ⟨_, _, _, hn, hc, hw, hdb, hdry, hiff.mp ⟨_, hdry⟩, ?_⟩
  intro v w acts r hdoes
  obtain ⟨e, he, -⟩ | ⟨q, calls, opened, hq, hopens, hend⟩ := hsends rfl rfl hdoes
  · rw [hdry] at he
    cases he
  · exact ⟨q, calls, opened, Except.ok.inj (hq.symm.trans hdry), hopens, hend⟩

/-- Without any configuration a dry run prints a statement that no handle can send. -/
theorem not_dryRun_iff_handle :
    ¬ ∀ (s : Surroundings) (o : ExecOptions) (n : Node) (c : Config),
      readTree s o.input = .ok n → configured s o = .ok c →
        ((∃ text, dryRun s o = .ok text) ↔
          ∃ db, c.handle = .ok db ∧ ∃ q, db.compile n = .ok q) := by
  intro h
  let s : Surroundings := { input := selectDocument, file := fun _ => .error "" }
  let o : ExecOptions := ⟨"-", none, none, true, .table⟩
  have hn : readTree s o.input = .ok selectNode := readTree_input tree?_selectDocument
  have hc : configured s o = .ok {} := rfl
  have hdry := (dryRun_eq_ok_iff hn hc _).mpr ⟨.postgres, _, rfl, compile_selectNode _, rfl⟩
  obtain ⟨db, hdb, -⟩ := (h s o _ _ hn hc).mp ⟨_, hdry⟩
  cases hdb

end CommandLine

end SqlTree
