import RegexTypeset.CommandLine.Run

/-! # Runs on limited sinks

A run makes a sequence of writes: those of the first pattern, then those of the next one.
Without limits all of them are accepted, and each pattern adds what belongs to it alone.
With limits the run ends at the first write that is refused. Up to there it is the run
without limits, so what it printed is the beginning of what that one prints.
-/
namespace RegexTypeset

namespace Write

def textOn (channel : Channel) (writes : List Write) : String :=
  String.join ((writes.filter (·.channel = channel)).map Write.text)

@[simp] theorem textOn_nil (channel : Channel) : textOn channel [] = "" := by
  simp [textOn]

theorem textOn_append (channel : Channel) (s t : List Write) :
    textOn channel (s ++ t) = textOn channel s ++ textOn channel t := by
  simp only [textOn, List.filter_append, List.map_append, String.join_append]

theorem textOn_flatMap {α : Type} (channel : Channel) (f : α → List Write) (items : List α) :
    textOn channel (items.flatMap f) = String.join (items.map fun item => textOn channel (f item)) := by
  induction items with
  | nil => simp
  | cons item items ih => rw [List.flatMap_cons, textOn_append, ih, List.map_cons, String.join_cons]

/-- A write passes the limit of its channel, behind others that were accepted. -/
def Exceeds (limits : Channel → Option Nat) (before : List Write) (write : Write) : Prop :=
  ∃ limit, limits write.channel = some limit ∧
    limit < (textOn write.channel (before ++ [write])).utf8ByteSize

end Write

open Write (textOn textOn_nil textOn_append textOn_flatMap)

namespace Sink

variable {sink sink' : Sink} {text : String}

theorem write?_eq_some (h : sink.write? text = some sink') :
    sink' = { sink with written := sink.written ++ text } := by
  simp only [write?] at h
  split at h
  case isTrue => exact (Option.some.inj h).symm
  case isFalse => cases h

theorem write?_eq_none_iff : sink.write? text = none ↔
    ∃ limit, sink.limit = some limit ∧ limit < (sink.written ++ text).utf8ByteSize := by
  rcases sink with ⟨_ | limit, written⟩ <;> simp [write?]

end Sink

namespace Sinks

variable {sinks sinks' sinks'' : Sinks} {write : Write} {writes more before after : List Write}

structure Took (sinks : Sinks) (writes : List Write) (sinks' : Sinks) : Prop where
  limit : ∀ channel, (sinks'.sink channel).limit = (sinks.sink channel).limit
  written : ∀ channel,
    (sinks'.sink channel).written = (sinks.sink channel).written ++ textOn channel writes

theorem took_nil (sinks : Sinks) : sinks.Took [] sinks :=
  ⟨fun _ => rfl, fun channel => by rw [textOn_nil, String.append_empty]⟩

theorem Took.append (h : sinks.Took writes sinks') (h' : sinks'.Took more sinks'') :
    sinks.Took (writes ++ more) sinks'' := by
  refine ⟨fun channel => (h'.limit channel).trans (h.limit channel), fun channel => ?_⟩
  rw [h'.written, h.written, textOn_append, String.append_assoc]

theorem took_write? (h : sinks.write? write = some sinks') : sinks.Took [write] sinks' := by
  rcases write with ⟨_ | _, text⟩
  · obtain ⟨out, ho, rfl⟩ := Option.map_eq_some_iff.mp h
    rw [Sink.write?_eq_some ho]
    constructor <;> rintro (_ | _) <;> simp [sink, textOn]
  · obtain ⟨err, he, rfl⟩ := Option.map_eq_some_iff.mp h
    rw [Sink.write?_eq_some he]
    constructor <;> rintro (_ | _) <;> simp [sink, textOn]

theorem write?_eq_none_iff : sinks.write? write = none ↔
    ∃ limit, (sinks.sink write.channel).limit = some limit ∧
      limit < ((sinks.sink write.channel).written ++ write.text).utf8ByteSize := by
  rcases write with ⟨_ | _, text⟩ <;>
    exact Option.map_eq_none_iff.trans Sink.write?_eq_none_iff

theorem writeAll_append (sinks : Sinks) (s t : List Write) :
    sinks.writeAll (s ++ t) =
      match sinks.writeAll s with
      | (sinks, .ok ()) => sinks.writeAll t
      | (sinks, .error channel) => (sinks, .error channel) := by
  induction s generalizing sinks with
  | nil => rfl
  | cons write s ih =>
    simp only [List.cons_append, writeAll]
    cases sinks.write? write with
    | none => rfl
    | some sinks' => exact ih sinks'

/-- Either all writes are accepted, or those up to the first one that is refused. -/
theorem writeAll_cases (sinks : Sinks) (writes : List Write) :
    (∃ sinks', sinks.writeAll writes = (sinks', .ok ()) ∧ sinks.Took writes sinks') ∨
      ∃ before write after sinks', writes = before ++ write :: after ∧
        sinks.writeAll writes = (sinks', .error write.channel) ∧ sinks.Took before sinks' ∧
        sinks'.write? write = none := by
  induction writes generalizing sinks with
  | nil => exact Or.inl ⟨sinks, rfl, took_nil sinks⟩
  | cons write writes ih =>
    simp only [writeAll]
    cases h : sinks.write? write with
    | none => exact Or.inr ⟨[], write, writes, sinks, rfl, rfl, took_nil sinks, h⟩
    | some sinks₁ =>
      have hw := took_write? h
      rcases ih sinks₁ with ⟨sinks', hs, ht⟩ | ⟨before, refused, after, sinks', rfl, hs, ht, hr⟩
      · exact Or.inl ⟨sinks', hs, hw.append ht⟩
      · exact Or.inr ⟨write :: before, refused, after, sinks', rfl, hs, hw.append ht, hr⟩

/-- If all writes are accepted, so is each one behind those before it. -/
theorem exists_took_of_ok (h : (sinks.writeAll (before ++ write :: after)).2 = .ok ()) :
    ∃ sinks', sinks.Took before sinks' ∧ sinks'.write? write ≠ none := by
  rw [writeAll_append] at h
  rcases writeAll_cases sinks before with ⟨sinks', hs, ht⟩ | ⟨_, _, _, sinks', -, hs, -, -⟩
  · refine ⟨sinks', ht, fun hn => ?_⟩
    simp only [hs, writeAll, hn] at h
    cases h
  · simp only [hs] at h
    cases h

end Sinks

/-- What is among the lists made of some items is in the list made of one of them. -/
theorem exists_split_of_flatMap {α β : Type} {f : α → List β} {items : List α} {before after : List β}
    {b : β} (h : items.flatMap f = before ++ b :: after) :
    ∃ earlier item later part rest, items = earlier ++ item :: later ∧ f item = part ++ b :: rest ∧
      before = earlier.flatMap f ++ part := by
  induction items generalizing before with
  | nil => cases before <;> cases h
  | cons item items ih =>
    rw [List.flatMap_cons] at h
    rcases List.append_eq_append_iff.mp h with ⟨more, rfl, hm⟩ | ⟨more, hi, hm⟩
    · obtain ⟨earlier, found, later, part, rest, rfl, hf, rfl⟩ := ih hm
      exact ⟨item :: earlier, found, later, part, rest, rfl, hf, by simp⟩
    · cases more with
      | nil =>
        have hrest : items.flatMap f = [] ++ b :: after := hm.symm
        obtain ⟨earlier, found, later, part, rest, rfl, hf, hb⟩ := ih hrest
        refine ⟨item :: earlier, found, later, part, rest, rfl, hf, ?_⟩
        rw [List.append_nil] at hi
        rw [List.flatMap_cons, List.append_assoc, ← hb, List.append_nil, hi]
      | cons first more =>
        obtain ⟨rfl, rfl⟩ := List.cons.inj hm
        exact ⟨[], item, items, before, more, rfl, hi, rfl⟩

namespace Console

def fresh (limits : Channel → Option Nat) (delivery : Delivery) : Console :=
  { Console.start (limits .out) (limits .err) with delivery := delivery }

variable {limits : Channel → Option Nat} {delivery : Delivery} {sinks' : Sinks} {write : Write}
  {writes before : List Write}

theorem sink_fresh (limits : Channel → Option Nat) (delivery : Delivery) (channel : Channel) :
    (fresh limits delivery).sink channel = .ofLimit (limits channel) := by
  cases channel <;> rfl

theorem written_of_took (h : (fresh limits delivery).toSinks.Took writes sinks') (channel : Channel) :
    (sinks'.sink channel).written = textOn channel writes := by
  rw [h.written, sink_fresh]
  exact String.empty_append

theorem exceeds_iff_of_took (h : (fresh limits delivery).toSinks.Took before sinks') :
    write.Exceeds limits before ↔ sinks'.write? write = none := by
  have ht : textOn write.channel [write] = write.text := by simp [textOn]
  rw [Sinks.write?_eq_none_iff, written_of_took h, h.limit, sink_fresh, Write.Exceeds, textOn_append, ht]
  rfl

end Console

theorem Write.textOn_map (channel own : Channel) (texts : List String) :
    textOn channel (texts.map (Write.mk own)) = if own = channel then String.join texts else "" := by
  induction texts with
  | nil => simp
  | cons text texts ih =>
    have hs : textOn channel [⟨own, text⟩] = if own = channel then text else "" := by
      by_cases h : own = channel <;> simp [textOn, h]
    rw [List.map_cons, ← List.singleton_append, textOn_append, hs, ih]
    split
    case isTrue => rw [String.join_cons]
    case isFalse => rw [String.empty_append]

/-- A report is on its channel only, however it is delivered. -/
theorem Delivery.textOn_writes (delivery : Delivery) (channel : Channel) (report : Report) :
    textOn channel (delivery.writes report) = if report.channel = channel then report.text else "" := by
  rw [Delivery.writes, Write.textOn_map, delivery.join_portions]

namespace Job

def writes (job : Job) (delivery : Delivery) (text : String) : List Write :=
  (job.reports text).flatMap delivery.writes

/-- Rendering a pattern for a run is rendering its text. -/
theorem renderText_eq (job : Job) (text : String) :
    job.renderer.renderText text job.flags = (job.render text).map Prod.fst := by
  simp only [Renderer.renderText, render]
  cases Sample.ofText text job.flags with
  | error e => rfl
  | ok sample => cases hs : job.renderer.renderSample sample <;> simp [hs, Except.map]

end Job

namespace Console

theorem print_eq (console : Console) {reports : List Report} {sinks : Sinks}
    {result : Except Channel Unit}
    (h : console.toSinks.writeAll (reports.flatMap console.delivery.writes) = (sinks, result)) :
    console.print reports = ({ console with toSinks := sinks }, result) := by
  simp only [print, h]

/-- An outcome that some writes lead to: a value if all of them are accepted, and otherwise the
error of the channel that refuses one. -/
inductive Performs {α : Type} (console : Console) (writes : List Write) (a : α) : Outcome α → Prop
  | accepted {console' : Console} (sinks : console.toSinks.writeAll writes = (console'.toSinks, .ok ()))
      (delivery : console'.delivery = console.delivery) : Performs console writes a (console', .ok a)
  | refused {console' : Console} {channel : Channel}
      (sinks : console.toSinks.writeAll writes = (console'.toSinks, .error channel))
      (delivery : console'.delivery = console.delivery) :
      Performs console writes a (console', .error (.refused channel))

variable {α : Type} {a : α} {outcome : Outcome α} {limits : Channel → Option Nat} {delivery : Delivery}
  {writes : List Write}

/-- From a fresh console either every write fits, or those before the first one that does not are
on their channels and nothing else is. -/
theorem Performs.cases (h : (fresh limits delivery).Performs writes a outcome) :
    (outcome.2 = .ok a ∧ (∀ channel, (outcome.1.sink channel).written = textOn channel writes) ∧
        ∀ before write after, writes = before ++ write :: after → ¬ write.Exceeds limits before) ∨
      ∃ before write after, writes = before ++ write :: after ∧ write.Exceeds limits before ∧
        outcome.2 = .error (.refused write.channel) ∧
        ∀ channel, (outcome.1.sink channel).written = textOn channel before := by
  rcases Sinks.writeAll_cases (fresh limits delivery).toSinks writes with
    ⟨sinks', hw, ht⟩ | ⟨before, write, after, sinks', rfl, hw, ht, hr⟩
  · left
    cases h with
    | refused hs hd => cases hw.symm.trans hs
    | accepted hs hd =>
      obtain rfl := congrArg Prod.fst (hw.symm.trans hs)
      refine ⟨rfl, written_of_took ht, fun before write after he hx => ?_⟩
      subst he
      obtain ⟨sinks₁, ht₁, hn⟩ := Sinks.exists_took_of_ok (congrArg Prod.snd hw)
      exact hn ((exceeds_iff_of_took ht₁).mp hx)
  · right
    refine ⟨before, write, after, rfl, (exceeds_iff_of_took ht).mpr hr, ?_⟩
    cases h with
    | accepted hs hd => cases hw.symm.trans hs
    | refused hs hd =>
      obtain ⟨rfl, he⟩ := Prod.mk.inj (hw.symm.trans hs)
      obtain rfl := Except.error.inj he
      exact ⟨rfl, written_of_took ht⟩

/-- What is printed is the beginning of what the writes put on a channel. -/
theorem Performs.begins (h : (fresh limits delivery).Performs writes a outcome) (channel : Channel) :
    ∃ rest, textOn channel writes = (outcome.1.sink channel).written ++ rest := by
  rcases h.cases with ⟨-, hw, -⟩ | ⟨before, write, after, rfl, -, -, hw⟩
  · exact ⟨"", by rw [hw, String.append_empty]⟩
  · exact ⟨textOn channel (write :: after), by rw [hw, textOn_append]⟩

/-- An error means that a write did not fit, and that those before it are printed. -/
theorem Performs.of_error (h : (fresh limits delivery).Performs writes a outcome) {e : RunError}
    (he : outcome.2 = .error e) :
    ∃ before write after, writes = before ++ write :: after ∧ write.Exceeds limits before ∧
      e = .refused write.channel ∧ ∀ channel, (outcome.1.sink channel).written = textOn channel before := by
  rcases h.cases with ⟨hr, -, -⟩ | ⟨before, write, after, hs, hx, hr, hw⟩
  · cases he.symm.trans hr
  · exact ⟨before, write, after, hs, hx, Except.error.inj (he.symm.trans hr), hw⟩

theorem Performs.error_iff (h : (fresh limits delivery).Performs writes a outcome) :
    (∃ e, outcome.2 = .error e) ↔
      ∃ before write after, writes = before ++ write :: after ∧ write.Exceeds limits before := by
  constructor
  · rintro ⟨e, he⟩
    obtain ⟨before, write, after, hs, hx, -, -⟩ := h.of_error he
    exact ⟨before, write, after, hs, hx⟩
  · rintro ⟨before, write, after, hs, hx⟩
    rcases h.cases with ⟨-, -, hn⟩ | ⟨_, refused, _, -, -, hr, -⟩
    · exact absurd hx (hn before write after hs)
    · exact ⟨.refused refused.channel, hr⟩

theorem Performs.unlimited (h : (fresh (fun _ => none) delivery).Performs writes a outcome) :
    outcome.2 = .ok a ∧ ∀ channel, (outcome.1.sink channel).written = textOn channel writes := by
  rcases h.cases with ⟨hr, hw, -⟩ | ⟨_, _, _, -, ⟨_, hl, -⟩, -⟩
  · exact ⟨hr, hw⟩
  · cases hl

end Console

namespace Job

theorem performs_runOne (job : Job) (console : Console) (text : String) :
    console.Performs (job.writes console.delivery text) (job.render text).toBool
      (job.runOne console text) := by
  rw [runOne]
  rcases hw : console.toSinks.writeAll (job.writes console.delivery text) with ⟨sinks, channel | _⟩
  · rw [(console.logAll (job.events text)).print_eq hw]
    exact .refused hw rfl
  · rw [(console.logAll (job.events text)).print_eq hw]
    exact .accepted hw rfl

/-- Patterns are treated one after the other. -/
theorem performs_run (job : Job) (console : Console) (texts : List String) :
    console.Performs (texts.flatMap (job.writes console.delivery))
      (texts.all fun text => (job.render text).toBool) (job.run console texts) := by
  induction texts generalizing console with
  | nil => exact .accepted rfl rfl
  | cons text texts ih =>
    have hone := job.performs_runOne console text
    have happend := console.toSinks.writeAll_append (job.writes console.delivery text)
      (texts.flatMap (job.writes console.delivery))
    rw [List.flatMap_cons, List.all_cons, run]
    generalize job.runOne console text = outcome at hone
    cases hone with
    | refused hs hd =>
      rw [hs] at happend
      exact .refused happend hd
    | @accepted console₁ hs hd =>
      rw [hs] at happend
      have hrest := ih console₁
      rw [hd] at hrest
      dsimp only
      generalize job.run console₁ texts = outcome at hrest
      cases hrest with
      | refused hs' hd' => exact .refused (happend.trans hs') (hd'.trans hd)
      | accepted hs' hd' => exact .accepted (happend.trans hs') (hd'.trans hd)

end Job

namespace Config

variable {config : Config} {isTerminal : Bool}

def renderer (config : Config) (isTerminal : Bool) : Renderer :=
  .ofTarget (config.effectiveTarget isTerminal) config.strict

def flagLine (config : Config) (text : String) : String :=
  match Sample.ofText text config.flags with
  | .error _ => ""
  | .ok sample =>
    if config.showFlags ∧ sample.flags.documented ≠ "" then
      "Flags: " ++ sample.flags.documented ++ "\n"
    else ""

/-- What is printed about one pattern: its rendering and its flags on the output, or on the error
output why it was not rendered. -/
def printed (config : Config) (isTerminal : Bool) (channel : Channel) (text : String) : String :=
  match channel, (config.renderer isTerminal).renderText text config.flags with
  | .out, .ok rendered => rendered ++ "\n" ++ config.flagLine text
  | .err, .error e => Quoted.string text ++ ": " ++ e.message ++ "\n"
  | _, _ => ""

def fails (config : Config) (isTerminal : Bool) (text : String) : Bool :=
  !((config.renderer isTerminal).renderText text config.flags).toBool

theorem renders_eq (config : Config) (isTerminal : Bool) (text : String) :
    ((config.job isTerminal).render text).toBool = !config.fails isTerminal text := by
  have hr := (config.job isTerminal).renderText_eq text
  have hf : config.fails isTerminal text =
      !(((config.job isTerminal).render text).map Prod.fst).toBool := hr ▸ rfl
  rw [hf, Bool.not_not]
  cases (config.job isTerminal).render text <;> rfl

theorem join_flagReports (config : Config) (isTerminal : Bool) {text : String} {sample : Sample}
    (h : Sample.ofText text config.flags = .ok sample) (channel : Channel) :
    String.join (((config.job isTerminal).flagReports sample.flags).map fun report =>
      if report.channel = channel then report.text else "") =
      if channel = .out then config.flagLine text else "" := by
  simp only [flagLine, h, Job.flagReports, job, Bool.and_eq_true, Bool.not_eq_true',
    ← Bool.not_eq_true, String.isEmpty_iff]
  split <;> cases channel <;> simp [Report.text, Report.channel]

/-- The writes of a pattern make what is printed about it. -/
theorem textOn_writes (config : Config) (isTerminal : Bool) (delivery : Delivery) (channel : Channel)
    (text : String) :
    textOn channel ((config.job isTerminal).writes delivery text) =
      config.printed isTerminal channel text := by
  have hrenderer : (config.job isTerminal).renderer = config.renderer isTerminal := rfl
  have hflags : (config.job isTerminal).flags = config.flags := rfl
  rw [Job.writes, textOn_flatMap]
  simp only [Delivery.textOn_writes, printed, Renderer.renderText, Job.reports, Job.render,
    hrenderer, hflags]
  cases hs : Sample.ofText text config.flags with
  | error e => cases channel <;> simp [Report.channel, Report.text]
  | ok sample =>
    cases hr : (config.renderer isTerminal).renderSample sample with
    | error e => cases channel <;> simp [hr, Report.channel, Report.text]
    | ok rendered =>
      simp only [hr, List.map_cons, String.join_cons, join_flagReports config isTerminal hs]
      cases channel <;> simp [Report.channel, Report.text]

/-- What all patterns together put on a channel. -/
theorem textOn_allWrites (config : Config) (isTerminal : Bool) (delivery : Delivery)
    (channel : Channel) (texts : List String) :
    textOn channel (texts.flatMap ((config.job isTerminal).writes delivery)) =
      String.join (texts.map (config.printed isTerminal channel)) := by
  rw [textOn_flatMap]
  simp only [textOn_writes]

/-- A run with patterns of its own performs their writes. -/
theorem performs_run (config : Config) (isTerminal : Bool) (input : ByteArray) (console : Console)
    (h : config.patterns ≠ []) :
    console.Performs (config.patterns.flatMap ((config.job isTerminal).writes console.delivery))
      (if config.patterns.any (config.fails isTerminal) then 1 else 0)
      (config.run isTerminal input console) := by
  have hp : config.patternsOr input = .ok config.patterns := by
    simp [patternsOr, h]
  have hcode : (config.patterns.all fun text => ((config.job isTerminal).render text).toBool) =
      !config.patterns.any (config.fails isTerminal) := by
    rw [List.not_any_eq_all_not]
    simp only [renders_eq]
  let target := config.effectiveTarget isTerminal
  have hrun := (config.job isTerminal).performs_run
    (console.logAll [.rendering target.name config.strict]) config.patterns
  simp only [run, hp]
  generalize (config.job isTerminal).run _ config.patterns = outcome at hrun
  cases hrun with
  | refused hs hd => exact .refused hs hd
  | accepted hs hd =>
    rw [hcode]
    cases config.patterns.any (config.fails isTerminal) <;> exact .accepted hs hd

/-- A run prints what belongs to each pattern, in order, and fails exactly if a pattern does. Where
the channels are limited, it prints the beginning of that up to the first write that is
refused, which is in the middle of one pattern. -/
theorem run_patterns (config : Config) (isTerminal : Bool) (input : ByteArray) (delivery : Delivery)
    (hp : config.patterns ≠ []) :
    let run (config : Config) (limits : Channel → Option Nat) :=
      config.run isTerminal input (.fresh limits delivery)
    let unlimited : Channel → Option Nat := fun _ => none
    let writes := (config.job isTerminal).writes delivery
    ((run config unlimited).2 =
        .ok (if config.patterns.any (config.fails isTerminal) then 1 else 0) ∧
      ∀ channel, ((run config unlimited).1.sink channel).written =
        String.join (config.patterns.map (config.printed isTerminal channel))) ∧
    (∀ others, others ≠ [] → ∀ channel,
      ((run { config with patterns := config.patterns ++ others } unlimited).1.sink channel).written =
        ((run config unlimited).1.sink channel).written ++
          ((run { config with patterns := others } unlimited).1.sink channel).written) ∧
    ∀ limits,
      (∀ channel, ∃ rest, ((run config unlimited).1.sink channel).written =
        ((run config limits).1.sink channel).written ++ rest) ∧
      ((∃ e, (run config limits).2 = .error e) ↔ ∃ before write after,
        config.patterns.flatMap writes = before ++ write :: after ∧ write.Exceeds limits before) ∧
      ∀ e, (run config limits).2 = .error e → ∃ earlier text later part write rest,
        config.patterns = earlier ++ text :: later ∧ writes text = part ++ write :: rest ∧
        write.Exceeds limits (earlier.flatMap writes ++ part) ∧ e = .refused write.channel ∧
        ∀ channel, ((run config limits).1.sink channel).written =
          String.join (earlier.map (config.printed isTerminal channel)) ++ textOn channel part := by
  intro run unlimited writes
  have hall (config : Config) (h : config.patterns ≠ []) :=
    (config.performs_run isTerminal input (.fresh unlimited delivery) h).unlimited
  have hwritten (config : Config) (h : config.patterns ≠ []) (channel : Channel) :
      ((run config unlimited).1.sink channel).written =
        String.join (config.patterns.map (config.printed isTerminal channel)) :=
    ((hall config h).2 channel).trans (config.textOn_allWrites isTerminal delivery channel _)
  refine ⟨⟨(hall config hp).1, hwritten config hp⟩, fun others ho channel => ?_, fun limits => ?_⟩
  · rw [hwritten config hp, hwritten { config with patterns := others } ho,
      hwritten { config with patterns := config.patterns ++ others } (by simp [hp])]
    rw [List.map_append, String.join_append]
    rfl
  · have hlimited := config.performs_run isTerminal input (.fresh limits delivery) hp
    refine ⟨fun channel => ?_, hlimited.error_iff, fun e he => ?_⟩
    · rw [(hall config hp).2 channel]
      exact hlimited.begins channel
    · obtain ⟨before, write, after, hs, hx, rfl, hw⟩ := hlimited.of_error he
      obtain ⟨earlier, text, later, part, rest, ht, hpart, rfl⟩ := exists_split_of_flatMap hs
      refine ⟨earlier, text, later, part, write, rest, ht, hpart, hx, rfl, fun channel => ?_⟩
      rw [← config.textOn_allWrites isTerminal delivery, ← textOn_append]
      exact hw channel

/-- The second rendering does not fit the output any more. -/
theorem run_patterns_refused :
    let config : Config := ⟨["ab ", "(", "(?i)c"], .terminal, ∅, true, false, .never, none⟩
    let limits : Channel → Option Nat
      | .out => some 7
      | .err => none
    let run (limits : Channel → Option Nat) := config.run true .empty (.fresh limits .whole)
    (run fun _ => none).2 = .ok 1 ∧
      (run fun _ => none).1.out.written = "ab[ ]\nc\nFlags: :py:data:`re.IGNORECASE`\n" ∧
      (run fun _ => none).1.err.written =
        "\"(\": missing ), unterminated subpattern at position 0\n" ∧
      (∃ e, (run limits).2 = .error e) ∧
      ∃ rest, "ab[ ]\nc\nFlags: :py:data:`re.IGNORECASE`\n" = (run limits).1.out.written ++ rest := by
  intro config limits run
  obtain ⟨⟨hcode, hwritten⟩, -, hlimits⟩ :=
    run_patterns config true .empty .whole (List.cons_ne_nil _ _)
  obtain ⟨hbegins, hrefused, -⟩ := hlimits limits
  have hfails : config.patterns.any (config.fails true) = true := by decide +kernel
  have hout : String.join (config.patterns.map (config.printed true .out)) =
      "ab[ ]\nc\nFlags: :py:data:`re.IGNORECASE`\n" := by decide +kernel
  have herr : String.join (config.patterns.map (config.printed true .err)) =
      "\"(\": missing ), unterminated subpattern at position 0\n" := by decide +kernel
  have hwrites : config.patterns.flatMap ((config.job true).writes .whole) =
      [⟨.out, "ab[ ]\n"⟩, ⟨.err, "\"(\": missing ), unterminated subpattern at position 0\n"⟩] ++
        ⟨.out, "c\n"⟩ :: [⟨.out, "Flags: :py:data:`re.IGNORECASE`\n"⟩] := by decide +kernel
  rw [hfails] at hcode
  have hall : (run fun _ => none).1.out.written = _ := (hwritten .out).trans hout
  refine ⟨hcode, hall, (hwritten .err).trans herr, ?_, ?_⟩
  · exact hrefused.mpr ⟨_, _, _, hwrites, 7, rfl, by decide +kernel⟩
  · rw [← hall]
    exact hbegins .out

end Config

end RegexTypeset
