import Rulebook.Proofs.Settings.Paths
import Rulebook.Settings.Application

/-!
# Settings in their sections

A section is read field by field, and each field has a part of the record to itself (`Governs`). So
what a record has for a field is read from the one setting that stands under the name of the field,
and is the default if there is none (`Governs.readsAt`).

`Leaf` lists all that can be set, each by the names that lead to it. Whatever a table of settings
stands for has at each of them what is read there (`Settings.readsAt_of_ofTable?`), if the sections
are tables.
-/

namespace Rulebook

namespace Setting

/-- `a` is what is read from a setting that is there, and the default if there is none. -/
def ReadsAt {α : Type} (convert : Setting → Option α) (default : α) (o : Option Setting) (a : α) :
    Prop :=
  match o with
  | some v => convert v = some a
  | none => a = default

/-- Of the fields those with the name, and there is one, set what `get` gets to what `convert` makes
of a setting, and all others leave it as it is. -/
structure Governs {σ α : Type} (fields : List (Field σ)) (name : String)
    (convert : Setting → Option α) (get : σ → α) : Prop where
  mem : name ∈ fields.map Field.name
  reads : ∀ f ∈ fields, ∀ s v s', f.read s v = some s' →
    if f.name = name then convert v = some (get s') else get s' = get s

variable {σ τ α : Type} {name : String} {convert : Setting → Option α}
  {es : List (String × Setting)}

/-- What holds of a record holds after fields have been taken in that keep it. -/
theorem foldlM_fields_invariant (Inv : σ → Prop) {fields : List (Field σ)} {s s' : σ} (hs : Inv s)
    (hkeep : ∀ f ∈ fields, ∀ v, Entries.find? f.name es = some v →
      ∀ s s', Inv s → f.read s v = some s' → Inv s')
    (h : fields.foldlM (fun s f => match Entries.find? f.name es with
      | some v => f.read s v
      | none => some s) s = some s') : Inv s' := by
  induction fields generalizing s with
  | nil =>
    cases h
    exact hs
  | cons f fields ih =>
    rw [List.foldlM_cons] at h
    obtain ⟨s₁, hfirst, h⟩ := Option.bind_eq_some_iff.1 h
    refine ih ?_ (fun g hg => hkeep g (List.mem_cons_of_mem f hg)) h
    -- a field without a setting leaves the record as it is
    cases hfind : Entries.find? f.name es with
    | none =>
      rw [hfind] at hfirst
      cases hfirst
      exact hs
    | some v =>
      rw [hfind] at hfirst
      exact hkeep f List.mem_cons_self v hfind s s₁ hs hfirst

/-- What a record has for a field is read from what stands under the name of the field. -/
theorem Governs.readsAt {fields : List (Field σ)} {get : σ → α} {defaults s : σ}
    (hgoverns : Governs fields name convert get)
    (h : toSection? fields defaults (.table es) = some s) :
    ReadsAt convert (get defaults) (at? [name] (.table es)) (get s) := by
  obtain ⟨hmem, hreads⟩ := hgoverns
  rw [toSection?] at h
  rw [at?_singleton, entries]
  cases hfind : Entries.find? name es with
  | none =>
    -- no field that is taken in has that name
    refine foldlM_fields_invariant (fun s => get s = get defaults) rfl
      (fun f hf v hv s s' hs hread => ?_) h
    have hne : f.name ≠ name := by
      rintro rfl
      rw [hfind] at hv
      cases hv
    have hkept := hreads f hf s v s' hread
    rw [if_neg hne] at hkept
    exact hkept.trans hs
  -- the field is taken in at its place, and those before it do not matter
  | some v =>
    obtain ⟨f, hf, rfl⟩ := List.mem_map.1 hmem
    obtain ⟨before, after, rfl⟩ := List.append_of_mem hf
    rw [List.foldlM_append] at h
    obtain ⟨s₁, -, h⟩ := Option.bind_eq_some_iff.1 h
    rw [List.foldlM_cons] at h
    obtain ⟨s₂, hread, h⟩ := Option.bind_eq_some_iff.1 h
    rw [hfind] at hread
    -- from here on the record has what is read there
    have hset := hreads f hf s₁ v s₂ hread
    rw [if_pos rfl] at hset
    refine foldlM_fields_invariant (fun s => convert v = some (get s)) hset
      (fun g hg w hw s s' hs hread => ?_) h
    have hstep := hreads g (List.mem_append_right _ (List.mem_cons_of_mem f hg)) s w s' hread
    by_cases hn : g.name = f.name
    · -- the same name again, with the same setting under it
      rw [if_pos hn] at hstep
      rw [hn, hfind] at hw
      cases hw
      exact hstep
    · rw [if_neg hn] at hstep
      rw [hstep]
      exact hs

/-- What a record has for a field within a section is read from what the two names lead to. -/
theorem Governs.readsAt_section {outer : List (Field σ)} {inner : List (Field τ)} {field : String}
    {defaults s : σ} {part : σ → τ} {partDefaults : τ} {get : τ → α}
    (houter : Governs outer name (toSection? inner partDefaults) part)
    (hdefaults : part defaults = partDefaults) (hinner : Governs inner field convert get)
    (htable : ∀ x ∈ at? [name] (.table es), x.IsTable)
    (h : toSection? outer defaults (.table es) = some s) :
    ReadsAt convert (get (part defaults)) (at? [name, field] (.table es)) (get (part s)) := by
  subst hdefaults
  have hpart := houter.readsAt h
  rw [at?_singleton] at hpart htable
  rw [at?]
  cases hfind : Entries.find? name (Setting.table es).entries with
  -- without a section all of its fields have their defaults
  | none =>
    rw [hfind] at hpart
    exact congrArg get hpart
  | some x =>
    obtain ⟨es', rfl⟩ := htable x hfind
    rw [hfind] at hpart
    exact hinner.readsAt hpart

end Setting

/-! ### All that can be set -/

/-- The settings that have no settings inside. -/
inductive Leaf where
  | service
  | environment
  | store
  | host
  | port
  | url
  | maxConnections
  | minConnections
  | connectTimeout
  | idleTimeout
  | level
  | json
  deriving DecidableEq, Repr

namespace Leaf

/-- What is set. -/
def Carrier : Leaf → Type
  | service | environment | host | url | level => String
  | port | maxConnections | minConnections | connectTimeout | idleTimeout => Nat
  | store => StoreKind
  | json => Bool

/-- The names that lead to a setting. -/
def path : Leaf → List String
  | service => ["service_name"]
  | environment => ["environment"]
  | store => ["storage"]
  | host => ["server", "host"]
  | port => ["server", "port"]
  | url => ["database", "url"]
  | maxConnections => ["database", "max_connections"]
  | minConnections => ["database", "min_connections"]
  | connectTimeout => ["database", "connect_timeout_seconds"]
  | idleTimeout => ["database", "idle_timeout_seconds"]
  | level => ["observability", "log_level"]
  | json => ["observability", "json_logs"]

/-- What a setting that is written can stand for. -/
def convert : (l : Leaf) → Setting → Option l.Carrier
  | service | environment | host | url | level => Setting.toText?
  | port => Setting.toNatBelow? ServerSettings.portBound
  | maxConnections | minConnections => Setting.toNatBelow? DatabaseSettings.connectionBound
  | connectTimeout | idleTimeout => Setting.toNatBelow? DatabaseSettings.secondsBound
  | store => Setting.toNamed? Settings.storeNames
  | json => Setting.toFlag?

/-- What is set in the settings of an application. -/
def get : (l : Leaf) → Settings → l.Carrier
  | service => Settings.service
  | environment => Settings.environment
  | store => Settings.store
  | host => fun s => s.server.host
  | port => fun s => s.server.port
  | url => fun s => s.database.url
  | maxConnections => fun s => s.database.maxConnections
  | minConnections => fun s => s.database.minConnections
  | connectTimeout => fun s => s.database.connectTimeout
  | idleTimeout => fun s => s.database.idleTimeout
  | level => fun s => s.log.level
  | json => fun s => s.log.json

end Leaf

/-! ### The fields of the sections -/

open Setting (Governs)

/-- Each field of the server is set by its name alone. -/
theorem ServerSettings.governs :
    Governs fields "host" Setting.toText? host ∧
    Governs fields "port" (Setting.toNatBelow? portBound) port := by
  refine ⟨⟨by simp [fields], fun f hf s v s' h => ?_⟩, ⟨by simp [fields], fun f hf s v s' h => ?_⟩⟩
  all_goals
    simp only [fields, List.mem_cons, List.not_mem_nil, or_false] at hf
    rcases hf with rfl | rfl <;> obtain ⟨a, ha, ⟨⟩⟩ := Option.bind_eq_some_iff.1 h <;> simp [ha]

/-- Each field of the database is set by its name alone. -/
theorem DatabaseSettings.governs :
    Governs fields "url" Setting.toText? url ∧
    Governs fields "max_connections" (Setting.toNatBelow? connectionBound) maxConnections ∧
    Governs fields "min_connections" (Setting.toNatBelow? connectionBound) minConnections ∧
    Governs fields "connect_timeout_seconds" (Setting.toNatBelow? secondsBound) connectTimeout ∧
    Governs fields "idle_timeout_seconds" (Setting.toNatBelow? secondsBound) idleTimeout := by
  refine ⟨⟨by simp [fields], fun f hf s v s' h => ?_⟩, ⟨by simp [fields], fun f hf s v s' h => ?_⟩,
    ⟨by simp [fields], fun f hf s v s' h => ?_⟩, ⟨by simp [fields], fun f hf s v s' h => ?_⟩,
    ⟨by simp [fields], fun f hf s v s' h => ?_⟩⟩
  all_goals
    simp only [fields, List.mem_cons, List.not_mem_nil, or_false] at hf
    rcases hf with rfl | rfl | rfl | rfl | rfl <;>
      obtain ⟨a, ha, ⟨⟩⟩ := Option.bind_eq_some_iff.1 h <;> simp [ha]

/-- Each field of the log is set by its name alone. -/
theorem Journal.LogSettings.governs :
    Governs fields "log_level" Setting.toText? level ∧
    Governs fields "json_logs" Setting.toFlag? json := by
  refine ⟨⟨by simp [fields], fun f hf s v s' h => ?_⟩, ⟨by simp [fields], fun f hf s v s' h => ?_⟩⟩
  all_goals
    simp only [fields, List.mem_cons, List.not_mem_nil, or_false] at hf
    rcases hf with rfl | rfl <;> obtain ⟨a, ha, ⟨⟩⟩ := Option.bind_eq_some_iff.1 h <;> simp [ha]

namespace Settings

/-- Each field of the settings is set by its name alone. -/
theorem governs :
    Governs fields "service_name" Setting.toText? service ∧
    Governs fields "environment" Setting.toText? environment ∧
    Governs fields "storage" (Setting.toNamed? storeNames) store ∧
    Governs fields "server" (Setting.toSection? ServerSettings.fields {}) server ∧
    Governs fields "database" (Setting.toSection? DatabaseSettings.fields {}) database ∧
    Governs fields "observability" (Setting.toSection? Journal.LogSettings.fields {}) log := by
  refine ⟨⟨by simp [fields], fun f hf s v s' h => ?_⟩, ⟨by simp [fields], fun f hf s v s' h => ?_⟩,
    ⟨by simp [fields], fun f hf s v s' h => ?_⟩, ⟨by simp [fields], fun f hf s v s' h => ?_⟩,
    ⟨by simp [fields], fun f hf s v s' h => ?_⟩, ⟨by simp [fields], fun f hf s v s' h => ?_⟩⟩
  all_goals
    simp only [fields, List.mem_cons, List.not_mem_nil, or_false] at hf
    rcases hf with rfl | rfl | rfl | rfl | rfl | rfl <;>
      obtain ⟨a, ha, ⟨⟩⟩ := Option.bind_eq_some_iff.1 h <;> simp [ha]

open Setting (ReadsAt at?)

/-- **Whatever a table of settings stands for has at each leaf what is read there**, and the default
where there is nothing, if the section of the leaf is a table. -/
theorem readsAt_of_ofTable? {es : List (String × Setting)} {s : Settings} (l : Leaf)
    (htable : ∀ name ∈ l.path.dropLast, ∀ x ∈ at? [name] (.table es), x.IsTable)
    (h : ofTable? (.table es) = some s) :
    ReadsAt l.convert (l.get {}) (at? l.path (.table es)) (l.get s) := by
  obtain ⟨hservice, henvironment, hstore, hserver, hdatabase, hlog⟩ := governs
  obtain ⟨hhost, hport⟩ := ServerSettings.governs
  obtain ⟨hurl, hmax, hmin, hconnect, hidle⟩ := DatabaseSettings.governs
  obtain ⟨hlevel, hjson⟩ := Journal.LogSettings.governs
  -- three leaves stand at the top, the others in a section
  cases l with
  | service => exact hservice.readsAt h
  | environment => exact henvironment.readsAt h
  | store => exact hstore.readsAt h
  | host => exact hserver.readsAt_section rfl hhost (htable _ List.mem_cons_self) h
  | port => exact hserver.readsAt_section rfl hport (htable _ List.mem_cons_self) h
  | url => exact hdatabase.readsAt_section rfl hurl (htable _ List.mem_cons_self) h
  | maxConnections => exact hdatabase.readsAt_section rfl hmax (htable _ List.mem_cons_self) h
  | minConnections => exact hdatabase.readsAt_section rfl hmin (htable _ List.mem_cons_self) h
  | connectTimeout => exact hdatabase.readsAt_section rfl hconnect (htable _ List.mem_cons_self) h
  | idleTimeout => exact hdatabase.readsAt_section rfl hidle (htable _ List.mem_cons_self) h
  | level => exact hlog.readsAt_section rfl hlevel (htable _ List.mem_cons_self) h
  | json => exact hlog.readsAt_section rfl hjson (htable _ List.mem_cons_self) h

end Settings

end Rulebook
