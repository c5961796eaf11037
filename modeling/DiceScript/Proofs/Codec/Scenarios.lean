import DiceScript.Proofs.Codec.Finite
import DiceScript.Scenario.Basic

/-!
# Scenarios read back

The codecs of options, outcomes, steps and scenarios are faithful. An absent part of a step is
written as `null`, which no part is written as; an absent part of an outcome is not written at all.
The kind of an outcome may stand anywhere among its members, so an outcome is read whole before its
kind is known, and the scope is asked only once.

- `Json.faithful_record` — a record is faithful if its fields are.
- `Options.faithful_toJson`, `StepOutcome.faithful_toJson`, `ScenarioStep.faithful_toJson` — parts.
- `Scenario.faithful_toJson` — hence scenarios.
- `Scenario.Finite`, `Scenario.Finite.writable_toJson` — scenarios that lose nothing when written.
- `Scenario.ensures_finite` — such are all that were read.
-/

namespace DiceScript

/-! ## Fields -/

namespace Json

section Fields

variable {α : Type} {write : α → Json} {read : Scope → Json → Option α}

@[simp] theorem admits_null (scope : Scope) : scope.admits .null = true := by
  cases scope <;> simp [Scope.admits, depth, isReadable]

theorem optional_of_ne_null {β : Type} {read : Json → Option β} {j : Json} (hj : j ≠ .null) :
    optional read (some j) = (read j).map some := by
  cases j <;> first | exact absurd rfl hj | rfl

theorem Faithful.required (h : Faithful write read) (scope : Scope) (a : α) :
    required (read scope) (some (write a)) = if scope.admits (write a) then some a else none :=
  h scope a

theorem Faithful.withDefault (h : Faithful write read) (scope : Scope) (value a : α) :
    withDefault value (read scope) (some (write a)) =
      if scope.admits (write a) then some a else none :=
  h scope a

/-- A part that may be absent is read back if no part is written as `null`. -/
theorem Faithful.optional (h : Faithful write read) (hnull : ∀ a, write a ≠ .null) (scope : Scope)
    (o : Option α) :
    optional (read scope) (some (ScenarioStep.optionJson write o)) =
      if scope.admits (ScenarioStep.optionJson write o) then some o else none := by
  cases o with
  | none => simp [ScenarioStep.optionJson, Json.optional]
  | some a =>
    rw [ScenarioStep.optionJson, optional_of_ne_null (hnull a), h]
    split <;> rfl

/-- A record is faithful if its fields are, in the scope inside it. -/
theorem faithful_record {names : List String} (values : α → List Json) (hn : names.Nodup)
    (hlength : ∀ a, names.length = (values a).length)
    (hwrite : ∀ a, write a = .obj (names.zip (values a)))
    (hnone : ∀ scope j, toFields? names scope j = none → read scope j = none)
    (hsome : ∀ scope j inner a, toFields? names scope j = some (inner, (values a).map some) →
      read scope j = if (values a).all inner.admits then some a else none) :
    Faithful write read := by
  intro scope a
  have hfields := toFields?_zip hn (hlength a) scope
  have hall : ∀ inner : Scope,
      ((names.zip (values a)).all fun m => inner.admits m.2) = (values a).all inner.admits := by
    intro inner
    conv_rhs => rw [← List.map_snd_zip (hlength a).ge, List.all_map]
    rfl
  rw [hwrite, admits_obj]
  cases henter : scope.enter? with
  | none =>
    rw [henter] at hfields
    exact hnone scope _ hfields
  | some inner =>
    rw [henter] at hfields
    rw [hsome scope _ inner a hfields, Option.any_some, hall]

theorem writable_optionJson {o : Option α} (h : ∀ a ∈ o, (write a).Writable) :
    (ScenarioStep.optionJson write o).Writable := by
  cases o with
  | none => exact writable_null
  | some a => exact h a rfl

theorem Ensures.optional {P : α → Prop} (h : Ensures read P) {inner : Scope} {field : Option Json}
    {o : Option α} (hfield : ∀ k, field = some k → k.InRange)
    (hread : Json.optional (read inner) field = some o) : ∀ a ∈ o, P a := by
  intro a ha
  unfold Json.optional at hread
  split at hread
  · obtain rfl := Option.some.inj hread
    cases ha
  · obtain rfl := Option.some.inj hread
    cases ha
  · rename_i k _
    obtain ⟨b, hb, rfl⟩ := Option.map_eq_some_iff.mp hread
    obtain rfl := Option.some.inj ha
    exact h inner k b (hfield k rfl) hb

end Fields

/-! ## Unsigned integers -/

def ofUInt64 (n : UInt64) : Json := .int n.toNat

theorem faithful_ofUInt64 : Faithful ofUInt64 fun _ => toUInt64? := by
  intro scope n
  have hn : n.toNat < UInt64.size := n.toNat_lt
  have hbounds : (0 : Int) ≤ n.toNat ∧ (n.toNat : Int) < UInt64.size := by omega
  unfold ofUInt64 toUInt64?
  rw [admits_int, if_pos rfl]
  dsimp only
  rw [if_pos hbounds, Int.toNat_natCast, UInt64.ofNat_toNat]

@[simp] theorem writable_ofUInt64 (n : UInt64) : (ofUInt64 n).Writable := by
  have hn : n.toNat < 18446744073709551616 := n.toNat_lt
  rw [ofUInt64, writable_int]
  constructor <;> omega

end Json

/-! ## Options -/

theorem Tier.faithful_toJson : Json.Faithful Tier.toJson Tier.ofJson? := by
  intro scope t
  rw [Tier.ofJson?_toJson, Tier.toJson, Json.admits_str, if_pos rfl]

namespace Limits

theorem faithful_toJson : Json.Faithful toJson ofJson? := by
  refine Json.faithful_record
    (fun l : Limits => [Json.ofUInt64 l.maxLoopIterations, Json.ofUInt64 l.maxTotalLoopIterations,
      Json.ofUInt64 l.maxDiceDraws, Json.ofUInt64 l.maxExponentSteps, Json.ofUInt64 l.maxCallDepth])
    (show ["maxLoopIterations", "maxTotalLoopIterations", "maxDiceDraws", "maxExponentSteps",
      "maxCallDepth"].Nodup by decide)
    (fun _ => rfl) (fun _ => rfl) (fun scope j h => by rw [ofJson?, h]) fun scope j inner l h => ?_
  rw [ofJson?, h]
  simp only [List.map_cons, List.map_nil, Json.faithful_ofUInt64.withDefault inner]
  simp [ite_and, Json.bind_admitted]

@[simp] theorem writable_toJson (l : Limits) : l.toJson.Writable := by
  have hfields : l.toJson = .obj [("maxLoopIterations", Json.ofUInt64 l.maxLoopIterations),
      ("maxTotalLoopIterations", Json.ofUInt64 l.maxTotalLoopIterations),
      ("maxDiceDraws", Json.ofUInt64 l.maxDiceDraws),
      ("maxExponentSteps", Json.ofUInt64 l.maxExponentSteps),
      ("maxCallDepth", Json.ofUInt64 l.maxCallDepth)] := rfl
  simp [hfields]

end Limits

namespace ResolutionOrder

theorem faithful_toJson : Json.Faithful toJson ofJson? := by
  intro scope o
  have htiers := Tier.faithful_toJson.toList? scope o.tiers
  have horder : ofList? o.tiers = some o := dif_pos o.nodup
  dsimp only at htiers
  rw [ofJson?, toJson, htiers]
  split
  · rw [Option.bind_some, horder]
  · rfl

@[simp] theorem writable_toJson (o : ResolutionOrder) : o.toJson.Writable := by
  simp [toJson]

end ResolutionOrder

theorem Redefinition.faithful_name : Json.Faithful (fun r => .str (name r)) fun scope j =>
    (Json.toName? scope j).bind ofName? := by
  intro scope r
  rw [Json.admits_str]
  cases r <;> rfl

namespace Cadence

theorem faithful_toJson : Json.Faithful toJson ofJson? := by
  refine Json.faithful_record
    (fun c : Cadence => [Json.ofUInt64 c.commands, Json.ofUInt64 c.intervalSecs])
    (show ["commands", "intervalSecs"].Nodup by decide) (fun _ => rfl) (fun _ => rfl)
    (fun scope j h => by rw [ofJson?, h]) fun scope j inner c h => ?_
  rw [ofJson?, h]
  simp only [List.map_cons, List.map_nil, Json.faithful_ofUInt64.required inner]
  simp [ite_and, Json.bind_admitted]

@[simp] theorem writable_toJson (c : Cadence) : c.toJson.Writable := by
  have hfields : c.toJson = .obj [("commands", Json.ofUInt64 c.commands),
      ("intervalSecs", Json.ofUInt64 c.intervalSecs)] := rfl
  simp [hfields]

end Cadence

namespace ScheduleOptions

theorem faithful_toJson : Json.Faithful toJson ofJson? := by
  refine Json.faithful_record
    (fun o : ScheduleOptions => [o.saveEvery.toJson, o.backupEvery.toJson])
    (show ["saveEvery", "backupEvery"].Nodup by decide) (fun _ => rfl) (fun _ => rfl)
    (fun scope j h => by rw [ofJson?, h]) fun scope j inner o h => ?_
  rw [ofJson?, h]
  simp only [List.map_cons, List.map_nil, Cadence.faithful_toJson.withDefault inner]
  simp [ite_and, Json.bind_admitted]

@[simp] theorem writable_toJson (o : ScheduleOptions) : o.toJson.Writable := by
  simp [toJson]

end ScheduleOptions

namespace Options

theorem toJson_eq (o : Options) : o.toJson = .obj
    (["limits", "resolutionOrder", "redefinition", "schedule", "randomSeed"].zip
      [o.limits.toJson, o.resolutionOrder.toJson, .str o.redefinition.name, o.schedule.toJson,
        ScenarioStep.optionJson Json.ofUInt64 o.randomSeed]) := by
  unfold toJson
  cases o.randomSeed <;> rfl

theorem faithful_toJson : Json.Faithful toJson ofJson? := by
  refine Json.faithful_record _ (by decide) (fun _ => rfl) toJson_eq
    (fun scope j h => by rw [ofJson?, h]) fun scope j inner o h => ?_
  have hseed := Json.faithful_ofUInt64.optional nofun inner o.randomSeed
  rw [ofJson?, h]
  simp only [List.map_cons, List.map_nil, Limits.faithful_toJson.withDefault inner,
    ResolutionOrder.faithful_toJson.withDefault inner,
    Redefinition.faithful_name.withDefault inner,
    ScheduleOptions.faithful_toJson.withDefault inner, hseed]
  simp [ite_and, Json.bind_admitted]

@[simp] theorem writable_toJson (o : Options) : o.toJson.Writable := by
  have hseed : (ScenarioStep.optionJson Json.ofUInt64 o.randomSeed).Writable :=
    Json.writable_optionJson fun n _ => Json.writable_ofUInt64 n
  simp [toJson_eq, hseed]

end Options

/-! ## Outcomes -/

namespace StepOutcome

/-- Among the members of an outcome is one for its kind and one for each field that is there. -/
theorem read?_record {kind : String} {fields : List (Option Json)} {members : List (String × Json)}
    (hkind : "kind" ∉ fieldNames kind) (hmembers : ∀ m ∈ members, m.1 ≠ "kind")
    (hpick : Json.pick (fieldNames kind) members = some fields) :
    read? (.obj (("kind", .str kind) :: members)) = ofFields? kind fields := by
  have hnone : members.filter (·.1 == "kind") = [] := by
    rw [List.filter_eq_nil_iff]
    intro m hm heq
    exact hmembers m hm (beq_iff_eq.mp heq)
  have hfilter : (("kind", Json.str kind) :: members).filter (·.1 == "kind") =
      [("kind", .str kind)] := by
    rw [List.filter_cons_of_pos (by simp), hnone]
  rw [read?, hfilter]
  dsimp only
  rw [Json.pick_cons_of_notMem hkind, hpick]
  rfl

theorem read?_toJson (o : StepOutcome) : read? o.toJson = some o := by
  cases o with
  | value v actions =>
    have hv : Json.required (Value.ofJson? .held) (some v.toJson) = some v :=
      Value.faithful_toJson .held v
    have hread : read? (toJson (.value v actions)) =
        ofFields? "value" [some v.toJson, actions.map Node.textsJson] := by
      cases actions <;> exact read?_record (by decide) (by simp [optionalMember]) rfl
    have hactions : Json.optional (Json.toTexts? .held) (actions.map Node.textsJson) =
        some actions := by
      cases actions with
      | none => rfl
      | some texts =>
        have htexts : Node.textsJson texts ≠ .null := nofun
        rw [Option.map_some, Json.optional_of_ne_null htexts, Node.faithful_textsJson]
        rfl
    rw [hread, ofFields?, hv, hactions]
    rfl
  | error kind iterations =>
    have hread : read? (toJson (.error kind iterations)) =
        ofFields? "error" [some (.str kind), iterations.map Json.ofUInt64] := by
      cases iterations <;> exact read?_record (by decide) (by simp [optionalMember]) rfl
    have hiterations : Json.optional Json.toUInt64? (iterations.map Json.ofUInt64) =
        some iterations := by
      cases iterations with
      | none => rfl
      | some n =>
        have hn := Json.faithful_ofUInt64 .held n
        have hnumber : Json.ofUInt64 n ≠ .null := nofun
        dsimp only at hn
        rw [Option.map_some, Json.optional_of_ne_null hnumber, hn]
        rfl
    rw [hread, ofFields?, hiterations]
    rfl

theorem faithful_toJson : Json.Faithful toJson ofJson? := by
  intro scope o
  rw [ofJson?, read?_toJson]

def Finite : StepOutcome → Prop
  | .value v _ => v.All Value.FinitePart
  | .error _ _ => True

theorem Finite.writable_toJson {o : StepOutcome} (h : o.Finite) : o.toJson.Writable := by
  cases o with
  | value v actions =>
    have hv : v.toJson.Writable := v.writable_toJson h
    cases actions <;> simp [toJson, optionalMember, hv]
  | error kind iterations =>
    cases iterations with
    | none => simp [toJson, optionalMember]
    | some n =>
      have hn : (Json.int n.toNat).Writable := Json.writable_ofUInt64 n
      rw [Json.writable_int] at hn
      simp [toJson, optionalMember, hn]

theorem finite_of_ofFields? {kind : String} {fields : List (Option Json)} {o : StepOutcome}
    (hfields : ∀ k, some k ∈ fields → k.InRange) (h : ofFields? kind fields = some o) :
    o.Finite := by
  unfold ofFields? at h
  split at h
  · simp only [Option.bind_eq_bind, Option.bind_eq_some_iff, Option.pure_def,
      Option.some.injEq] at h
    obtain ⟨v, hv, _, -, rfl⟩ := h
    obtain ⟨k, rfl, hk⟩ := Option.bind_eq_some_iff.mp hv
    exact Value.ensures_finite .held k v (hfields k (by simp)) hk
  · simp only [Option.bind_eq_bind, Option.bind_eq_some_iff, Option.pure_def,
      Option.some.injEq] at h
    obtain ⟨_, -, _, -, rfl⟩ := h
    trivial
  · cases h

/-- Outcomes that were read are finite. -/
theorem ensures_finite : Json.Ensures ofJson? Finite := by
  intro scope j o hj h
  unfold ofJson? at h
  split at h
  · unfold read? at h
    split at h
    · split at h
      · obtain ⟨fields, hpick, h⟩ := Option.bind_eq_some_iff.mp h
        refine finite_of_ofFields? (fun k hk => ?_) h
        obtain ⟨name, hmem⟩ := Json.mem_of_pick hpick hk
        exact hj.parts k (List.mem_map.mpr ⟨_, hmem, rfl⟩)
      · cases h
    · obtain ⟨fields, hplace, h⟩ := Option.bind_eq_some_iff.mp h
      refine finite_of_ofFields? (fun k hk => ?_) h
      exact hj.parts k (List.mem_cons_of_mem _ (Json.mem_of_place hplace hk))
    · cases h
  · cases h

end StepOutcome

/-! ## Steps -/

namespace ScenarioStep

theorem faithful_toJson : Json.Faithful toJson ofJson? := by
  have hnode : ∀ n : Node, n.toJson ≠ .null := by
    intro n hn
    obtain ⟨kind, fields, hrecord⟩ := n.toJson_cons
    rw [hrecord] at hn
    cases hn
  refine Json.faithful_record
    (fun s : ScenarioStep => [optionJson .str s.user, optionJson .str s.server,
      optionJson Node.toJson s.program, optionJson .str s.programFile, s.expect.toJson])
    (show ["user", "server", "program", "programFile", "expect"].Nodup by decide)
    (fun _ => rfl) (fun _ => rfl) (fun scope j h => by rw [ofJson?, h]) fun scope j inner s h => ?_
  have htext := Json.faithful_str.optional nofun inner
  rw [ofJson?, h]
  simp only [List.map_cons, List.map_nil, htext, Node.faithful_toJson.optional hnode inner,
    StepOutcome.faithful_toJson.required inner]
  simp [ite_and, Json.bind_admitted]

structure Finite (s : ScenarioStep) : Prop where
  program : ∀ n ∈ s.program, n.FiniteFloats
  expect : s.expect.Finite

theorem Finite.writable_toJson {s : ScenarioStep} (h : s.Finite) : s.toJson.Writable := by
  have htext : ∀ o : Option String, (optionJson .str o).Writable := fun o =>
    Json.writable_optionJson fun text _ => Json.writable_str text
  have hprogram : (optionJson Node.toJson s.program).Writable :=
    Json.writable_optionJson fun n hn => (h.program n hn).writable
  simp [toJson, htext, hprogram, h.expect.writable_toJson]

/-- Steps that were read are finite. -/
theorem ensures_finite : Json.Ensures ofJson? Finite := by
  intro scope j s hj h
  unfold ofJson? at h
  split at h
  · rename_i inner user server program programFile expect hfields
    have hrange : ∀ k, some k ∈ [user, server, program, programFile, expect] → k.InRange :=
      fun k hk => Json.inRange_of_toFields? hj hfields hk
    simp only [Option.bind_eq_bind, Option.bind_eq_some_iff, Option.pure_def,
      Option.some.injEq] at h
    obtain ⟨_, -, _, -, n, hprogram, _, -, o, hexpect, rfl⟩ := h
    obtain ⟨k, rfl, hk⟩ := Option.bind_eq_some_iff.mp hexpect
    constructor
    · exact Node.ensures_finiteFloats.optional (fun k hk => hrange k (by simp [hk])) hprogram
    · exact StepOutcome.ensures_finite inner k o (hrange k (by simp)) hk
  · cases h

end ScenarioStep

/-! ## Scenarios -/

namespace Scenario

/-- The codec of scenarios is faithful. -/
theorem faithful_toJson : Json.Faithful toJson ofJson? := by
  refine Json.faithful_record
    (fun s : Scenario => [.str s.schema, .str s.user, .str s.server,
      ScenarioStep.optionJson Options.toJson s.options, s.core.toJson,
      .arr (s.steps.map ScenarioStep.toJson)])
    (show ["schemaVersion", "user", "server", "options", "core", "steps"].Nodup by decide)
    (fun _ => rfl) (fun _ => rfl) (fun scope j h => by rw [ofJson?, h]) fun scope j inner s h => ?_
  have hoptions : ∀ o : Options, o.toJson ≠ .null := nofun
  have hsteps := ScenarioStep.faithful_toJson.toList?.withDefault inner [] s.steps
  rw [ofJson?, h]
  simp only [List.map_cons, List.map_nil, Json.faithful_str.required inner,
    Json.faithful_str.withDefault inner, Options.faithful_toJson.optional hoptions inner,
    Bindings.faithful_toJson.withDefault inner, hsteps]
  simp [ite_and, Json.bind_admitted]

/-- The floats of a scenario are finite, in the values of its core tier, in its programs and in what
it expects. -/
structure Finite (s : Scenario) : Prop where
  core : ∀ name v, s.core.get? name = some v → v.All Value.FinitePart
  steps : ∀ step ∈ s.steps, step.Finite

/-- A scenario with nothing but finite floats loses nothing. -/
theorem Finite.writable_toJson {s : Scenario} (h : s.Finite) : s.toJson.Writable := by
  have hcore : s.core.toJson.Writable := Dict.writable_toJson fun name v hv =>
    v.writable_toJson (h.core name v hv)
  have hoptions : (ScenarioStep.optionJson Options.toJson s.options).Writable :=
    Json.writable_optionJson fun o _ => o.writable_toJson
  have hsteps : ∀ step ∈ s.steps, step.toJson.Writable := fun step hstep =>
    (h.steps step hstep).writable_toJson
  simpa [toJson, hcore, hoptions] using hsteps

/-- Scenarios that were read have finite floats. -/
theorem ensures_finite : Json.Ensures ofJson? Finite := by
  intro scope j s hj h
  have hbindings : Json.Ensures Bindings.ofJson? fun b =>
      ∀ name v, b.get? name = some v → v.All Value.FinitePart := Value.ensures_finite.dict
  unfold ofJson? at h
  split at h
  · rename_i inner schema user server options core steps hfields
    have hrange : ∀ k, some k ∈ [schema, user, server, options, core, steps] → k.InRange :=
      fun k hk => Json.inRange_of_toFields? hj hfields hk
    simp only [Option.bind_eq_bind, Option.bind_eq_some_iff, Option.pure_def,
      Option.some.injEq] at h
    obtain ⟨_, -, _, -, _, -, _, -, b, hcore, l, hsteps, rfl⟩ := h
    constructor
    · exact hbindings.withDefault (by simp) (fun k hk => hrange k (by simp [hk])) hcore
    · exact ScenarioStep.ensures_finite.toList?.withDefault (by simp)
        (fun k hk => hrange k (by simp [hk])) hsteps
  · cases h

end Scenario

end DiceScript
