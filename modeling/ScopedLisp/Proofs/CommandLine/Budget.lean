import ScopedLisp.Proofs.CommandLine.ExitCode
import ScopedLisp.Proofs.Program.FirstStep
import ScopedLisp.Proofs.Store.Tree

/-!
# Two ways to set the budget

The number of steps is limited by an option or by a variable of the environment. The option stands
in front of the other arguments and is overridden by a later one; the variable is read where no
option is given.

* The decimal text of a number is taken for a value, also where it begins with a hyphen
  (`classify_decimal`).
* The arguments behind the option are taken as they are without it, but that there is a limit
  (`consume_orLimit`, `ofArguments_maxSteps`).
* The variable means what the option means with the same number, or with zero if the number is
  negative (`stepLimit_decimal`, `run_eq_option`).

So a negative number is where the two ways part: `evaluateSource_of_negative` and
`evaluateSource_of_no_datum` tell what the option makes of it.
-/

namespace ScopedLisp.CommandLine

open Routine Text

/-! ### The number as an argument -/

/-- The decimal text of a negative number has a hyphen in front and a digit behind it. -/
theorem exists_toList_decimal {n : Int} (negative : n < 0) :
    ∃ digit < 10, ∃ rest, (Numeral.decimal n).toList = '-' :: digit.digitChar :: rest := by
  rw [Numeral.toList_decimal, if_pos negative]
  cases digits : Nat.toDigits 10 n.natAbs with
  | nil => exact absurd digits Nat.toDigits_ne_nil
  | cons c rest =>
    have member : c ∈ Nat.toDigits 10 n.natAbs := digits ▸ List.mem_cons_self
    obtain ⟨digit, small, rfl⟩ := Numeral.exists_digitChar_of_mem_toDigits member
    exact ⟨digit, small, rest, rfl⟩

theorem ne_of_mem_decimal {c other : Char} {n : Int} (member : c ∈ (Numeral.decimal n).toList)
    (no_hyphen : other ≠ '-') (no_digit : ∀ digit < 10, digit.digitChar ≠ other) : c ≠ other := by
  obtain rfl | ⟨digit, small, rfl⟩ := Numeral.mem_decimal member
  · exact no_hyphen.symm
  · exact no_digit digit small

/-- No spelling of an option begins as a negative number does. -/
theorem lookup_spellings_eq_none {text : String} {digit : Nat} (small : digit < 10)
    (begins : text.toList.take 2 = ['-', digit.digitChar]) :
    Flag.spellings.lookup text = none := by
  have differ : ∀ digit < 10, ∀ spelled ∈ Flag.spellings,
      spelled.1.toList.take 2 ≠ ['-', digit.digitChar] := by decide
  rw [List.lookup_eq_none_iff]
  intro spelled member
  rw [bne_iff_ne]
  rintro rfl
  exact differ digit small spelled member begins

/-- Where there is no equals sign, nothing is split off. -/
theorem splitAtEquals_of_none {cs : List Char} (none : ∀ c ∈ cs, c ≠ '=') :
    splitAtEquals cs = (cs, Option.none) := by
  have all : ∀ c ∈ cs, (c != '=') = true := fun c member => bne_iff_ne.mpr (none c member)
  rw [splitAtEquals, List.dropWhile_eq_nil_iff.mpr all]

theorem splitAtEquals_decimal (n : Int) :
    splitAtEquals (Numeral.decimal n).toList = ((Numeral.decimal n).toList, none) :=
  splitAtEquals_of_none fun _ member => ne_of_mem_decimal member (by decide) (by decide)

theorem isNegativeNumber_decimal {n : Int} (negative : n < 0) :
    isNegativeNumber (Numeral.decimal n).toList = true := by
  have no_feed : (Numeral.decimal n).toList.getLast? ≠ some '\n' := by
    intro last
    exact ne_of_mem_decimal (List.mem_of_getLast? last) (by decide) (by decide) rfl
  have digits : isDigits (Nat.toDigits 10 n.natAbs) = true := by
    rw [isDigits, List.isEmpty_eq_false_iff.mpr Nat.toDigits_ne_nil, Bool.not_false, Bool.true_and,
      List.all_eq_true]
    exact fun _ => Numeral.isDecimalDigit_of_mem_toDigits
  rw [isNegativeNumber, dropFinalLineFeed, if_neg no_feed, Numeral.toList_decimal, if_pos negative]
  exact Bool.or_eq_true_iff.mpr (.inl digits)

/-- An argument that begins as a negative number does is no abbreviated option either. -/
theorem classifyUnlisted_decimal {n : Int} (negative : n < 0) :
    classifyUnlisted (Numeral.decimal n) (Numeral.decimal n).toList = .ok .plain := by
  obtain ⟨digit, small, rest, shape⟩ := exists_toList_decimal negative
  have short : startsLong (Numeral.decimal n).toList = false := by
    have no_hyphen : ∀ digit < 10, ('-' == digit.digitChar) = false := by decide
    rw [shape, startsLong, List.isPrefixOf_cons_cons, List.isPrefixOf_cons_cons,
      no_hyphen digit small, Bool.false_and, Bool.and_false]
  have differ : ∀ digit < 10, Flag.spellings.filter
      (fun spelled => spelled.1.toList == ['-', digit.digitChar]) = [] := by decide
  have begins : (Numeral.decimal n).toList.take 2 = ['-', digit.digitChar] := by
    rw [shape]
    rfl
  rw [classifyUnlisted, splitAtEquals_decimal]
  dsimp only
  rw [short, begins, isNegativeNumber_decimal negative, if_neg Bool.false_ne_true,
    differ digit small]
  rfl

/-- The decimal text is taken for a number and not for an option. -/
theorem classify_decimal (n : Int) : classify (Numeral.decimal n) = .ok .plain := by
  by_cases negative : n < 0
  · obtain ⟨digit, small, rest, shape⟩ := exists_toList_decimal negative
    have begins : (Numeral.decimal n).toList.take 2 = ['-', digit.digitChar] := by
      rw [shape]
      rfl
    have unlisted := lookup_spellings_eq_none small begins
    rw [classify]
    split
    · next body same =>
      have some_body : body.isEmpty = false := by
        rw [shape] at same
        cases same
        rfl
      rw [unlisted, some_body, splitAtEquals_decimal]
      dsimp only
      rw [String.ofList_toList, unlisted]
      exact classifyUnlisted_decimal negative
    · rfl
  · have no_hyphen : ∀ body, (Numeral.decimal n).toList ≠ '-' :: body := by
      intro body same
      have digits : ∀ digit < 10, digit.digitChar ≠ '-' := by decide
      rw [Numeral.toList_decimal, if_neg negative] at same
      obtain ⟨digit, small, hyphen⟩ :=
        Numeral.exists_digitChar_of_mem_toDigits (same ▸ List.mem_cons_self)
      exact digits digit small hyphen.symm
    rw [classify]
    split
    · next body same => exact absurd same (no_hyphen body)
    · rfl

/-! ### The option in front -/

/-- The options with this limit unless they have one. -/
def Options.orLimit (limit : Int) (options : Options) : Options :=
  { options with maxSteps := options.maxSteps.or (some limit) }

theorem setValue_orLimit (limit : Int) (options : Options) (flag : Flag) (text : String) :
    (options.orLimit limit).setValue flag text =
      (options.setValue flag text).map (Options.orLimit limit) := by
  cases flag with
  | help => rfl
  | dump => rfl
  | logLevel => rfl
  | maxSteps =>
    unfold Options.setValue
    dsimp only
    split
    · rfl
    · cases Text.Numeral.read text with
      | ok value => rfl
      | error defect => rfl

theorem bind_setValue_orLimit {limit : Int} {options : Options} (flag : Flag) (text : String)
    {rest : List (Argument × String)}
    (later : ∀ options, consume (Options.orLimit limit options) rest =
      (consume options rest).map (Option.map (Options.orLimit limit))) :
    ((options.orLimit limit).setValue flag text >>= fun chosen => consume chosen rest) =
      (options.setValue flag text >>= fun chosen => consume chosen rest).map
        (Option.map (Options.orLimit limit)) := by
  rw [setValue_orLimit]
  cases options.setValue flag text with
  | ok chosen => exact later chosen
  | error mistake => rfl

/-- A limit that is set first is overridden by any other. -/
theorem consume_orLimit (limit : Int) (options : Options) (arguments : List (Argument × String)) :
    consume (options.orLimit limit) arguments =
      (consume options arguments).map (Option.map (Options.orLimit limit)) := by
  -- Only the two cases in which a value is set look at the limit.
  fun_induction consume options arguments with
  | case1 options =>
    rw [consume]
    rfl
  | case2 options argument _ others missing =>
    rw [consume]
    · rfl
    · exact missing
  | case3 options argument rest missing other ih =>
    rw [consume]
    · exact ih
    · exact missing
    · exact other
  | case4 options argument rest program known ih =>
    rw [consume.eq_def]
    simp only [show (options.orLimit limit).program = some program from known]
    rw [known] at ih ⊢
    exact ih
  | case5 options argument _ program others missing =>
    rw [consume]
    · rfl
    · exact missing
  | case6 options argument rest other =>
    rw [consume]
    · rfl
    · exact other
  | case7 options argument rest ih =>
    rw [consume]
    exact ih
  | case8 | case9 | case11 =>
    rw [consume]
    rfl
  | case10 options _ _ letters =>
    rw [consume]
    cases checkLetters letters <;> rfl
  | case12 options attached _ rest other ih =>
    rw [consume]
    · exact ih
    · exact other
  | case13 options flag text _ rest no_help no_dump ih =>
    rw [consume]
    · exact bind_setValue_orLimit flag text ih
    · exact no_help
    · exact no_dump
  | case14 options flag attached _ text rest no_help no_dump other ih =>
    rw [consume]
    · exact bind_setValue_orLimit flag text ih
    · exact no_help
    · exact no_dump
    · exact other
  | case15 options flag attached _ rest no_help no_dump other no_value =>
    rw [consume]
    · rfl
    · exact no_help
    · exact no_dump
    · exact other
    · exact no_value

/-- The request with this limit unless it has one. -/
def Request.orLimit (limit : Int) : Request → Request
  | .help => .help
  | .evaluate program dump maxSteps logLevel =>
    .evaluate program dump (maxSteps.or (some limit)) logLevel

/-- With the option in front of them the arguments ask for the same as without it, but that there
is a limit. -/
theorem ofArguments_maxSteps {n : Int} (short : n.natAbs.repr.length ≤ digitLimit)
    (arguments : List String) :
    Request.ofArguments ("--max-steps" :: Numeral.decimal n :: arguments) =
      (Request.ofArguments arguments).map (Request.orLimit n) := by
  have separate : Numeral.decimal n ≠ "--" := by
    intro same
    have literal := Numeral.isLiteral_decimal n
    rw [same] at literal
    exact absurd literal (by decide)
  have listed : classify "--max-steps" = .ok (.option .maxSteps .nothing) := rfl
  have number := classify_decimal n
  have classified : classifyAll ("--max-steps" :: Numeral.decimal n :: arguments) =
      (classifyAll arguments).map
        ([(.option .maxSteps .nothing, "--max-steps"), (.plain, Numeral.decimal n)] ++ ·) := by
    rw [classifyAll, if_neg (by decide), listed, classifyAll, if_neg separate, number]
    cases classifyAll arguments <;> rfl
  rw [Request.ofArguments, classified, Request.ofArguments]
  cases classifyAll arguments with
  | error mistake => rfl
  | ok kinds =>
    have set : Options.initial.setValue .maxSteps (Numeral.decimal n) =
        .ok (Options.initial.orLimit n) := by
      simp only [Options.setValue, if_neg separate, Numeral.read_decimal short]
      rfl
    have consumed : consume .initial ([(.option .maxSteps .nothing, "--max-steps"),
        (.plain, Numeral.decimal n)] ++ kinds) =
        (consume .initial kinds).map (Option.map (Options.orLimit n)) := by
      change (Options.initial.setValue .maxSteps (Numeral.decimal n) >>= fun chosen =>
        consume chosen kinds) = _
      rw [set]
      exact consume_orLimit n .initial kinds
    simp only [Except.map, bind, Except.bind, consumed]
    cases consume .initial kinds with
    | error mistake => rfl
    | ok found =>
      cases found with
      | none => rfl
      | some options =>
        simp only [Option.map_some, Options.orLimit]
        cases options.program with
        | none => rfl
        | some program => cases options.extras <;> rfl

/-! ### The variable -/

theorem stepLimit_decimal {n : Int} (short : n.natAbs.repr.length ≤ digitLimit)
    (level : Option String) :
    Settings.stepLimit ⟨some (Numeral.decimal n), level⟩ = .ok (max 0 n) := by
  have nonempty : (Numeral.decimal n).isEmpty = false := by
    rw [String.isEmpty_eq_false_iff]
    intro empty
    exact Numeral.decimal_ne_nil n (String.toList_eq_nil_iff.mpr empty)
  simp only [Settings.stepLimit, Settings.integer, Numeral.trim_decimal, nonempty,
    Numeral.read_decimal short, Bool.false_eq_true, if_false]
  rfl

/-- The limit that the settings give means the same as an option. -/
theorem run_eq_option {settings : Settings} {limit : Int}
    (short : limit.natAbs.repr.length ≤ digitLimit) (limits : settings.stepLimit = .ok limit)
    (host : Host) (arguments : List String) :
    run host settings arguments =
      run host ⟨none, settings.logLevel⟩ ("--max-steps" :: Numeral.decimal limit :: arguments) := by
  rw [run, run, ofArguments_maxSteps short]
  cases Request.ofArguments arguments with
  | error mistake => rfl
  | ok request =>
    cases request with
    | help => rfl
    | evaluate program dump maxSteps logLevel =>
      have same_level : chosenLevel settings logLevel =
          chosenLevel ⟨none, settings.logLevel⟩ logLevel := by
        have same : settings.level = Settings.level ⟨none, settings.logLevel⟩ := by
          rw [Settings.level, Settings.level]
        unfold chosenLevel
        rw [same]
      have same_limit : chosenLimit settings maxSteps =
          chosenLimit ⟨none, settings.logLevel⟩ (maxSteps.or (some limit)) := by
        cases maxSteps with
        | none => exact limits
        | some other => rfl
      simp only [Except.map, Request.orLimit, same_level, same_limit]

/-! ### Both ways -/

/-- Where no datum of a program is read, the limit does not show. -/
theorem evaluateAndShow_of_no_datum {host : Host} {program : String}
    (no_datum : ∀ datum left,
      Reader.datum? host.reading (.ofSource program) ≠ .ok (some datum) left)
    (dump : Bool) (level limit limit' : Int) :
    evaluateAndShow host program dump level (.start .standard limit) =
      evaluateAndShow host program dump level (.start .standard limit') := by
  obtain ends | ⟨failure, ends⟩ := evaluateSource_of_no_datum .standard no_datum
  · simp only [evaluateAndShow, ends]
    rfl
  · simp only [evaluateAndShow, ends]
    rfl

/-- A mistake of the program goes to the error channel, before the state if that is asked for. -/
theorem exists_evaluateAndShow_of_mistake {host : Host} {program : String}
    {session last : Session} {failure : Failure}
    (failed : evaluateSource host program session = .error failure last)
    (mistake : failure.family = .program) (dump : Bool) (level : Int) :
    let outcome := evaluateAndShow host program dump level session
    ∃ more, outcome.output = "" ∧
      outcome.errors =
        shownRecords level last ++ "error: " ++ failure.message ++ "\n" ++ more ∧
      outcome.ending ≠ .ok 0 ∧
      (dump = false → more = "" ∧ outcome.ending = .ok 1) := by
  intro outcome
  have shows : outcome = evaluateAndShow host program dump level session := rfl
  simp only [evaluateAndShow, failed, mistake] at shows
  cases dumped : shownState dump last with
  | ok state =>
    rw [dumped] at shows
    rw [shows]
    refine ⟨state, rfl, rfl, ?_, ?_⟩
    · intro same
      cases same
    · rintro rfl
      cases dumped
      exact ⟨rfl, rfl⟩
  | error failure =>
    rw [dumped] at shows
    rw [shows]
    refine ⟨"", rfl, (String.append_empty).symm, ?_, ?_⟩
    · intro same
      cases same
    · rintro rfl
      cases dumped

/-- The arguments ask for the evaluation of a program without a limit of their own, and a datum of
the program is read. -/
structure StartsEvaluation (host : Host) (settings : Settings) (arguments : List String)
    (program : String) (dump : Bool) (level : Int) : Prop where
  asked : ∃ logLevel, Request.ofArguments arguments = .ok (.evaluate program dump none logLevel) ∧
    chosenLevel settings logLevel = .ok level
  begins : ∃ datum left,
    Reader.datum? host.reading (.ofSource program) = .ok (some datum) left

/-- Where no evaluation is started, any two limits come to the same. -/
theorem run_option_of_not_started {host : Host} {settings : Settings} {arguments : List String}
    (idle : ∀ program dump level, ¬StartsEvaluation host settings arguments program dump level)
    {limit limit' : Int} (short : limit.natAbs.repr.length ≤ digitLimit)
    (short' : limit'.natAbs.repr.length ≤ digitLimit) :
    run host settings ("--max-steps" :: Numeral.decimal limit :: arguments) =
      run host settings ("--max-steps" :: Numeral.decimal limit' :: arguments) := by
  rw [run, run, ofArguments_maxSteps short, ofArguments_maxSteps short']
  cases asked : Request.ofArguments arguments with
  | error mistake => rfl
  | ok request =>
    cases request with
    | help => rfl
    | evaluate program dump maxSteps logLevel =>
      cases maxSteps with
      | some other => rfl
      | none =>
        simp only [Except.map, Request.orLimit, Option.none_or]
        cases chosen : chosenLevel settings logLevel with
        | error failure => rfl
        | ok level =>
          apply evaluateAndShow_of_no_datum
          intro datum left read
          exact idle program dump level ⟨⟨logLevel, asked, chosen⟩, datum, left, read⟩

/-- The budget may be set by the option or by the variable, as decimal text.

What is not negative means the same in both ways, whatever else the arguments are, and a variable
that is not positive means the same as none. A negative option means the same as the negative
variable, too, unless a datum is read and evaluated under it: then the evaluation fails at its first
step, where the variable would set no limit. -/
theorem budget_settings_agree (host : Host) (level : Option String) (arguments : List String)
    {n : Int} {text : String} (printed : Numeral.print? n = some text) :
    let byOption := run host ⟨none, level⟩ ("--max-steps" :: text :: arguments)
    let byVariable := run host ⟨some text, level⟩ arguments
    let Starts := StartsEvaluation host ⟨none, level⟩ arguments
    (0 ≤ n → byOption = byVariable) ∧
    (n ≤ 0 → byVariable = run host ⟨none, level⟩ arguments) ∧
    ((∀ program dump shown, ¬Starts program dump shown) → byOption = byVariable) ∧
    (n < 0 → ¬host.evaluating.FailsEarly → 0 < host.evaluating.room →
      ∀ program dump shown, Starts program dump shown → ∃ last more,
        evaluateSource host program (.start .standard n) = .error (.stepLimitExceeded n) last ∧
        last.steps = 1 ∧
        byOption.output = "" ∧
        byOption.errors = shownRecords shown last ++ "error: " ++
          (Failure.stepLimitExceeded n).message ++ "\n" ++ more ∧
        byOption.ending ≠ .ok 0 ∧
        (dump = false → more = "" ∧ byOption.ending = .ok 1)) := by
  intro byOption byVariable Starts
  obtain ⟨short, rfl⟩ := Numeral.print?_eq_some_iff.mp printed
  have short_zero : (0 : Int).natAbs.repr.length ≤ digitLimit := by decide
  have short_max : (max 0 n).natAbs.repr.length ≤ digitLimit := by
    obtain same | same := max_choice 0 n
    · rw [same]
      exact short_zero
    · rw [same]
      exact short
  -- All three runs are runs with the option: with `n`, with `max 0 n` and with zero.
  have variable_eq : byVariable = _ :=
    run_eq_option short_max (stepLimit_decimal short level) host arguments
  refine ⟨?_, ?_, ?_, ?_⟩
  · intro positive
    rw [variable_eq, max_eq_right positive]
  · intro negative
    rw [variable_eq, max_eq_left negative]
    exact (@run_eq_option ⟨none, level⟩ 0 short_zero rfl host arguments).symm
  · intro idle
    rw [variable_eq]
    exact run_option_of_not_started idle short short_max
  · intro negative calm roomy program dump shown starts
    obtain ⟨⟨logLevel, asked, chosen⟩, datum, left, read⟩ := starts
    obtain ⟨last, fails, counted⟩ := evaluateSource_of_negative .standard read calm roomy negative
    have shows : byOption = evaluateAndShow host program dump shown (.start .standard n) := by
      simp only [byOption, run, ofArguments_maxSteps short, asked, Except.map, Request.orLimit,
        chosen]
      rfl
    obtain ⟨more, shape⟩ := exists_evaluateAndShow_of_mistake fails rfl dump shown
    rw [← shows] at shape
    exact ⟨last, more, fails, counted, shape⟩

/-- A budget of minus five steps is used up by a numeral if the option sets it, and it is no budget
if the variable does. -/
theorem budget_settings_agree_of_negative :
    Numeral.print? (-5) = some "-5" ∧
      run .standard ⟨some "-5", none⟩ ["1"] = run .standard ⟨none, none⟩ ["1"] ∧
      (run .standard ⟨none, none⟩ ["--max-steps", "-5", "1"]).ending = .ok 1 := by
  have printed : Numeral.print? (-5) = some "-5" := by decide
  have scanned : Token.scan "1" = ⟨[⟨.symbol, "1"⟩], none⟩ := by cbv
  have asked : Request.ofArguments ["1"] = .ok (.evaluate "1" false none none) := rfl
  have read : Reader.datum? Host.standard.reading (.ofSource "1") =
      .ok (some (.integer 1)) .empty := by
    rw [TokenStream.ofSource, scanned]
    rfl
  have starts : StartsEvaluation .standard ⟨none, none⟩ ["1"] "1" false Settings.defaultLevel :=
    ⟨⟨none, asked, rfl⟩, .integer 1, .empty, read⟩
  have calm : ¬Host.standard.evaluating.FailsEarly := by
    rintro ⟨moment, room, session, early⟩
    cases early
  obtain ⟨-, unlimited, -, exceeded⟩ := budget_settings_agree .standard none ["1"] printed
  obtain ⟨last, more, -, -, -, -, -, ending⟩ :=
    exceeded (by decide) calm (by decide) "1" false Settings.defaultLevel starts
  exact ⟨printed, unlimited (by decide), (ending rfl).2⟩

/-- The same negative number, once as the option and once in the variable. -/
theorem negative_budgets_differ :
    run .standard ⟨none, none⟩ ["--max-steps", "-5", "1"] =
        ⟨"", "error: evaluation exceeded -5 steps\n", .ok 1⟩ ∧
      run .standard ⟨some "-5", none⟩ ["1"] = ⟨"1\n", "", .ok 0⟩ := by
  have scanned : Token.scan "1" = ⟨[⟨.symbol, "1"⟩], none⟩ := by cbv
  have ahead : (Reader.data Host.standard.reading (.ofSource "1")).1 = ⟨[.integer 1], none⟩ := by
    rw [TokenStream.ofSource, scanned]
    rfl
  have fails : ∃ left, evaluateSource .standard "1" (.start .standard (-5)) =
      .error (.stepLimitExceeded (-5)) left := by
    rw [evaluateSource_eq_ahead, ahead]
    simp only [evaluateAll, evaluateDatum, embed_eq_embedded]
    exact ⟨_, rfl⟩
  have succeeds : ∃ left, evaluateSource .standard "1" (.start .standard 0) =
      .ok ⟨.objects, 1, 0⟩ left ∧
        left.store.heap.get ⟨.objects, 1, 0⟩ = .ok (.integer 1) := by
    rw [evaluateSource_eq_ahead, ahead]
    simp only [evaluateAll, evaluateDatum, embed_eq_embedded]
    exact ⟨_, rfl, rfl⟩
  have unclamped : run .standard ⟨none, none⟩ ["--max-steps", "-5", "1"] =
      evaluateAndShow .standard "1" false Settings.defaultLevel (.start .standard (-5)) := rfl
  have clamped : run .standard ⟨some "-5", none⟩ ["1"] =
      evaluateAndShow .standard "1" false Settings.defaultLevel (.start .standard 0) := rfl
  constructor
  · obtain ⟨left, fails⟩ := fails
    exact unclamped.trans (evaluateAndShow_mistake fails rfl)
  · obtain ⟨left, succeeds, stored⟩ := succeeds
    have rendered := @Store.render_leaf left.store (.integer 1) rfl _ (.inl stored)
    exact clamped.trans (evaluateAndShow_ok succeeds rendered)

end ScopedLisp.CommandLine
