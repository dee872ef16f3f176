import Conformance.Producer

namespace Conformance

namespace MessageOption

/-- The fields of a message that options name. -/
inductive Field
  | value
  | nonce
  | gasLimit
  | gasFeeCap
  | gasPremium
  deriving DecidableEq, Repr

namespace Field

/-- What a field holds. -/
abbrev Holds : Field → Type
  | value => TokenAmount
  | nonce => UInt64
  | gasLimit => Int64
  | gasFeeCap => TokenAmount
  | gasPremium => TokenAmount

/-- What a field holds where no option names it. -/
def default (d : MessageDefaults) : (f : Field) → f.Holds
  | value => d.value
  | nonce => (0 : UInt64)
  | gasLimit => d.gasLimit
  | gasFeeCap => d.gasFeeCap
  | gasPremium => d.gasPremium

end Field

/-- The field that an option names. -/
def field : MessageOption → Field
  | value _ => .value
  | nonce _ => .nonce
  | gasLimit _ => .gasLimit
  | gasFeeCap _ => .gasFeeCap
  | gasPremium _ => .gasPremium

/-- What an option has for a field, if it names that field. -/
def argument? : (f : Field) → MessageOption → Option f.Holds
  | .value, .value v => some v
  | .nonce, .nonce n => some n
  | .gasLimit, .gasLimit limit => some limit
  | .gasFeeCap, .gasFeeCap cap => some cap
  | .gasPremium, .gasPremium premium => some premium
  | _, _ => none

/-- The argument of the last option that names a field. -/
def last? (f : Field) (options : List MessageOption) : Option f.Holds :=
  (options.filterMap (argument? f)).getLast?

theorem last?_cons (f : Field) (o : MessageOption) (options : List MessageOption) :
    last? f (o :: options) = (last? f options).or (o.argument? f) := by
  unfold last?
  rw [List.filterMap_cons]
  cases o.argument? f with
  | none => rw [Option.or_none]
  | some x => simp only [List.getLast?_cons, Option.or_some]

/-- An option has an argument for the field that it names and for no other. -/
theorem argument?_eq_none_iff {f : Field} {o : MessageOption} :
    o.argument? f = none ↔ o.field ≠ f := by
  cases f <;> cases o <;> simp only [argument?, field, reduceCtorEq, ne_eq, not_true_eq_false,
    not_false_eq_true]

/-- Options of other fields do not matter. -/
theorem last?_filter (f : Field) (options : List MessageOption) :
    last? f (options.filter (fun o => o.field = f)) = last? f options := by
  induction options with
  | nil => rfl
  | cons o options ih =>
    by_cases h : o.field = f
    · rw [List.filter_cons_of_pos (by simpa using h), last?_cons, last?_cons, ih]
    · rw [List.filter_cons_of_neg (by simpa using h), last?_cons, ih, argument?_eq_none_iff.mpr h,
        Option.or_none]

end MessageOption

namespace MessageSettings

open MessageOption (last? argument? last?_cons)

/-- What a field holds. -/
def get (s : MessageSettings) : (f : MessageOption.Field) → f.Holds
  | .value => s.value
  | .nonce => s.nonce
  | .gasLimit => s.gasLimit
  | .gasFeeCap => s.gasFeeCap
  | .gasPremium => s.gasPremium

/-- Settings field by field. -/
def ofFields (g : (f : MessageOption.Field) → f.Holds) : MessageSettings where
  value := g .value
  nonce := g .nonce
  gasLimit := g .gasLimit
  gasFeeCap := g .gasFeeCap
  gasPremium := g .gasPremium

@[simp] theorem get_ofFields (g : (f : MessageOption.Field) → f.Holds)
    (f : MessageOption.Field) : (ofFields g).get f = g f := by
  cases f <;> rfl

theorem get_override (s : MessageSettings) (o : MessageOption) (f : MessageOption.Field) :
    (s.override o).get f = (o.argument? f).getD (s.get f) := by
  cases f <;> cases o <;> rfl

/-- Of the options that are applied from left to right the last of each field counts. -/
theorem foldl_override (options : List MessageOption) (s : MessageSettings) :
    options.foldl override s = ofFields (fun f => (last? f options).getD (s.get f)) := by
  induction options generalizing s with
  | nil => rfl
  | cons o options ih =>
    rw [List.foldl_cons, ih]
    refine congrArg ofFields (funext fun f => ?_)
    rw [get_override, last?_cons, Option.getD_or]

/-- A message with these settings. -/
def message (s : MessageSettings) (recipient sender : Address) (method : UInt64) (params : Bytes) :
    Message :=
  { recipient, sender, nonce := s.nonce, value := s.value, method, params,
    gasFeeCap := s.gasFeeCap, gasPremium := s.gasPremium, gasLimit := s.gasLimit }

end MessageSettings

namespace Producer

open MessageOption (last? last?_filter)

/-- The settings that options decide: the last argument for a field, or else the default. -/
def resolved (d : MessageDefaults) (options : List MessageOption) : MessageSettings :=
  .ofFields fun f => (last? f options).getD (f.default d)

theorem resolve_eq_resolved (p : Producer) (options : List MessageOption) :
    p.resolve options = resolved p.defaults options := by
  rw [resolve, MessageSettings.foldl_override]
  refine congrArg MessageSettings.ofFields (funext fun f => ?_)
  cases f <;> rfl

/-- Only the order of options that name the same field matters. -/
theorem resolved_congr (d : MessageDefaults) {options options' : List MessageOption}
    (h : ∀ f : MessageOption.Field, options.filter (fun o => o.field = f) =
      options'.filter (fun o => o.field = f)) : resolved d options = resolved d options' := by
  refine congrArg MessageSettings.ofFields (funext fun f => ?_)
  rw [← last?_filter f options, h f, last?_filter]

/-- A call of a producer. -/
inductive Call
  | resolve (options : List MessageOption)
  | build (recipient sender : Address) (method : UInt64) (params : Bytes)
      (options : List MessageOption)
  | transfer (recipient sender : Address) (options : List MessageOption)

inductive Answer
  | settings (s : MessageSettings)
  | message (m : Message)
  deriving DecidableEq, Repr

def Answer.message? : Answer → Option Message
  | settings _ => none
  | message m => some m

def call (p : Producer) : Call → Answer × Producer
  | .resolve options => (.settings (p.resolve options), p)
  | .build recipient sender method params options =>
    let (m, p) := p.build recipient sender method params options
    (.message m, p)
  | .transfer recipient sender options =>
    let (m, p) := p.transfer recipient sender options
    (.message m, p)

/-- Makes calls one after the other. -/
def run (p : Producer) : List Call → List Answer × Producer
  | [] => ([], p)
  | c :: calls =>
    let (answer, p) := p.call c
    let (answers, p) := p.run calls
    (answer :: answers, p)

/-- The answer to a call under some defaults. -/
def Call.answer (d : MessageDefaults) : Call → Answer
  | .resolve options => .settings (resolved d options)
  | .build recipient sender method params options =>
    .message ((resolved d options).message recipient sender method params)
  | .transfer recipient sender options =>
    .message ((resolved d options).message recipient sender Message.send [])

/-- A call is answered by the defaults, and a message that is answered with is remembered. -/
theorem call_eq (p : Producer) (c : Call) :
    p.call c = (c.answer p.defaults,
      { p with built := p.built ++ (c.answer p.defaults).message?.toList }) := by
  cases c with
  | resolve options =>
    simp only [call, Call.answer, resolve_eq_resolved, Answer.message?, Option.toList_none,
      List.append_nil]
  | build recipient sender method params options =>
    simp only [call, build, Call.answer, resolve_eq_resolved]
    rfl
  | transfer recipient sender options =>
    simp only [call, transfer, build, Call.answer, resolve_eq_resolved]
    rfl

theorem run_eq (p : Producer) (calls : List Call) :
    p.run calls = (calls.map (Call.answer p.defaults),
      { p with built := p.built ++
          (calls.map (Call.answer p.defaults)).filterMap Answer.message? }) := by
  induction calls generalizing p with
  | nil => simp only [run, List.map_nil, List.filterMap_nil, List.append_nil]
  | cons c calls ih =>
    simp only [run, call_eq, ih, List.map_cons, List.filterMap_cons, List.append_assoc]
    cases (c.answer p.defaults).message? <;> rfl

/-- Every field of what a producer resolves is the last argument for it, or else the default;
no call leaves anything behind but the message that it built. -/
theorem answers_of_calls (p : Producer) (calls : List Call) :
    (p.run calls).1 = calls.map (Call.answer p.defaults) ∧
      (p.run calls).2.built = p.built ++ (p.run calls).1.filterMap Answer.message? ∧
      (p.run calls).2.defaults = p.defaults ∧
      (∀ options f, ((p.run calls).2.resolve options).get f =
        (last? f options).getD (f.default p.defaults)) ∧
      ∀ options options', (∀ f : MessageOption.Field, options.filter (fun o => o.field = f) =
          options'.filter (fun o => o.field = f)) →
        (p.run calls).2.resolve options = (p.run calls).2.resolve options' := by
  rw [run_eq]
  refine ⟨rfl, rfl, rfl, fun options f => ?_, fun options options' h => ?_⟩
  · rw [resolve_eq_resolved, resolved, MessageSettings.get_ofFields]
  · rw [resolve_eq_resolved, resolve_eq_resolved, resolved_congr p.defaults h]

/-- Options of two fields change places, a repeated one does not; the calls before them show in
the log alone. -/
theorem answers_of_calls_transfers :
    let p : Producer := (transfer { defaults := { value := 5 } } (.id 100) (.id 101) [.nonce 4]).2
    let calls : List Call :=
      [.transfer (.id 100) (.id 101) [.value 9], .resolve [.nonce 7],
        .build (.id 101) (.id 100) 3 [1] []]
    let options : List MessageOption := [.value 1, .nonce 3, .value 2]
    let options' : List MessageOption := [.nonce 3, .value 1, .value 2]
    (p.run calls).2.built.map (fun m => (m.nonce, m.value)) = [(4, 5), (0, 9), (0, 5)] ∧
      (∀ f : MessageOption.Field, options.filter (fun o => o.field = f) =
        options'.filter (fun o => o.field = f)) ∧
      ((p.run calls).2.resolve options).get .value = 2 ∧
      (p.run calls).2.resolve options = (p.run calls).2.resolve options' := by
  intro p calls options options'
  have hsame : ∀ f : MessageOption.Field, options.filter (fun o => o.field = f) =
      options'.filter (fun o => o.field = f) := by
    intro f
    cases f <;> decide
  obtain ⟨-, hbuilt, -, hget, hresolve⟩ := answers_of_calls p calls
  refine ⟨?_, hsame, ?_, hresolve options options' hsame⟩
  · rw [hbuilt]; rfl
  · rw [hget]; rfl

end Producer
end Conformance
