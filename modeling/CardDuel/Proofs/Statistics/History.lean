import CardDuel.Proofs.Ledger
import CardDuel.Statistics.Basic
import Mathlib.Data.List.Induction
import Mathlib.Order.Bounds.Basic

/-!
# Statistics and the games played

A record is updated game by game, but what it holds is a property of the whole series of its
games: how many were won, lost and drawn, how long the last run of equal outcomes is, and how
long the longest run of wins.  `Record.Summarises` says so, and `Statistics.recordAll_summarises`
proves it of every record that fewer than 2 ^ 32 games leave behind.
-/

namespace CardDuel.Statistics

/-! ### Runs of equal outcomes -/

section

variable {outcome last : Outcome} {outcomes : List Outcome} {length : Nat}

theorem replicate_suffix_concat_iff :
  List.replicate (length + 1) outcome <:+ outcomes ++ [last]
    ↔ List.replicate length outcome <:+ outcomes ∧ outcome = last
  := by
  have split : List.replicate length outcome ++ [outcome] <:+ outcomes ++ [last]
      ↔ List.replicate length outcome <:+ outcomes ∧ [outcome] = [last] :=
    List.suffix_append_inj_of_length_eq rfl
  rw [List.replicate_succ', split, List.singleton_inj]

/-- An outcome makes the longest run of it at the end of a series longer by one. -/
theorem isGreatest_run_concat
    (h : IsGreatest {length | List.replicate length last <:+ outcomes} length) :
  IsGreatest {length | List.replicate length last <:+ outcomes ++ [last]} (length + 1)
  := by
  constructor
  · apply replicate_suffix_concat_iff.mpr ⟨h.1, rfl⟩
  · rintro (_ | length') run
    · omega
    · have shorter := h.2 (replicate_suffix_concat_iff.mp run).1
      omega

/-- A series that does not end with an outcome has no run of it at the end. -/
theorem isGreatest_run_of_getLast?_ne (h : outcomes.getLast? ≠ some outcome) :
  IsGreatest {length | List.replicate length outcome <:+ outcomes} 0
  := by
  constructor
  · apply List.nil_suffix
  · rintro (_ | length) ⟨before, rfl⟩
    · rfl
    · simp [List.getLast?_append, List.getLast?_replicate] at h

/-- The runs at the end of a series are runs of its last outcome. -/
theorem exists_run_iff (h : outcomes.getLast? = some last) :
  (∃ outcome, List.replicate length outcome <:+ outcomes)
    ↔ List.replicate length last <:+ outcomes
  := by
  constructor
  · rintro ⟨outcome, run⟩
    rcases length with _ | length
    · apply List.nil_suffix
    · obtain ⟨before, rfl⟩ := run
      obtain rfl : outcome = last := by
        simpa [List.getLast?_append, List.getLast?_replicate] using h
      apply List.suffix_append
  · intro run
    exact ⟨last, run⟩

/-- The longest run of an outcome after one more game is the one at the end or the longest one
before. -/
theorem isGreatest_infix_concat {best atEnd : Nat}
    (h : IsGreatest {length | List.replicate length outcome <:+: outcomes} best)
    (run : IsGreatest {length | List.replicate length outcome <:+ outcomes ++ [last]} atEnd) :
  IsGreatest {length | List.replicate length outcome <:+: outcomes ++ [last]} (max atEnd best)
  := by
  simp only [List.infix_concat_iff, Set.ofPred_or]
  apply run.union h

/-- Every game is won, lost or drawn. -/
theorem count_add_count_add_count (outcomes : List Outcome) :
  outcomes.count .win + outcomes.count .loss + outcomes.count .draw = outcomes.length
  := by
  induction outcomes with
  | nil => rfl
  | cons outcome rest ih => cases outcome <;> simp [← ih] <;> omega

end

/-! ### What a record says about a series of games -/

namespace Record

/-- The record holds the counts of a series of games and the lengths of its runs. -/
structure Tallies (record : Record) (outcomes : List Outcome) : Prop where
  played : record.played.toNat = outcomes.length
  wins : record.wins.toNat = outcomes.count .win
  losses : record.losses.toNat = outcomes.count .loss
  kind : record.kind = outcomes.getLast?
  /-- The streak is the longest run of equal outcomes at the end. -/
  streak : IsGreatest {length | ∃ outcome, List.replicate length outcome <:+ outcomes}
    record.streak.toNat
  /-- The best streak is the longest run of wins anywhere. -/
  best : IsGreatest {length | List.replicate length .win <:+: outcomes} record.best.toNat

/-- Two counters whose sum fits are added up. -/
theorem exists_addCounts {a b : UInt32} (fits : a.toNat + b.toNat < 4294967296) :
  ∃ c, addCounts a b = .ok c ∧ c.toNat = a.toNat + b.toNat
  := by
  refine ⟨a + b, if_pos fits, ?_⟩
  rw [UInt32.toNat_add, Nat.mod_eq_of_lt fits]

/-- The games won and lost together fit a counter. -/
def Fits (record : Record) : Prop :=
  record.wins.toNat + record.losses.toNat < 4294967296

/-- Where they fit, they are taken from the games played, as far as there are any left. -/
theorem exists_draws {record : Record} (fits : record.Fits) :
  ∃ draws, record.draws = .ok draws
    ∧ draws.toNat = record.played.toNat - (record.wins.toNat + record.losses.toNat)
  := by
  obtain ⟨decided, decidedOk, decidedNat⟩ := exists_addCounts fits
  rw [draws, decidedOk, ← decidedNat]
  by_cases within : decided ≤ record.played
  · refine ⟨record.played - decided, congrArg Except.ok (if_pos within), ?_⟩
    apply UInt32.toNat_sub_of_le _ _ within
  · refine ⟨0, congrArg Except.ok (if_neg within), ?_⟩
    rw [UInt32.le_iff_toNat_le] at within
    rw [UInt32.toNat_zero]
    omega

theorem exists_increment {counter : UInt32} (room : counter.toNat + 1 < 4294967296) :
  ∃ counter', addCounts counter 1 = .ok counter' ∧ counter'.toNat = counter.toNat + 1
  := exists_addCounts (b := 1) room

/-- An outcome is counted in the counter of its own kind only. -/
theorem exists_addCounts_if {counter : UInt32} {outcomes : List Outcome} {kind : Outcome}
    (counted : counter.toNat = outcomes.count kind) (room : outcomes.length + 1 < 4294967296)
    (outcome : Outcome) :
  ∃ counter', (if outcome = kind then addCounts counter 1 else pure counter) = .ok counter'
    ∧ counter'.toNat = (outcomes ++ [outcome]).count kind
  := by
  have few : outcomes.count kind ≤ outcomes.length := List.count_le_length
  by_cases same : outcome = kind
  · have fits : counter.toNat + 1 < 4294967296 := by omega
    obtain ⟨counter', added, sum⟩ := exists_increment fits
    refine ⟨counter', by rw [if_pos same, added], ?_⟩
    rw [sum, counted, List.count_append, same, List.count_singleton_self]
  · refine ⟨counter, by rw [if_neg same]; rfl, ?_⟩
    rw [counted, List.count_append, List.count_singleton, if_neg (by simpa using same),
      Nat.add_zero]

/-- Counting a game counts it in each of its counters. -/
theorem count_eq_bind (record : Record) (outcome : Outcome) :
  record.count outcome
    = addCounts record.played 1 >>= fun played =>
      (if outcome = .win then addCounts record.wins 1 else pure record.wins) >>= fun wins =>
      (if outcome = .loss then addCounts record.losses 1 else pure record.losses) >>= fun losses =>
      (if record.kind = some outcome then addCounts record.streak 1 else pure 1) >>= fun streak =>
      let best := if outcome = .win then max record.best streak else record.best
      pure { wins, losses, played, streak, kind := some outcome, best }
  := by
  unfold count
  congr 1
  funext played
  split <;> split <;> split <;> rfl

namespace Tallies

variable {record : Record} {outcomes : List Outcome}

theorem empty :
  Tallies {} []
  := by
  constructor
  case streak =>
    constructor
    · exact ⟨.win, List.nil_suffix⟩
    · rintro length ⟨outcome, run⟩
      simpa using run
  case best =>
    constructor
    · apply List.nil_infix
    · intro length run
      simpa using run
  all_goals rfl

/-- The streak is the longest run at the end of the outcome that it is of; there is no run of
any other outcome. -/
theorem isGreatest_run (h : record.Tallies outcomes) (outcome : Outcome) :
  IsGreatest {length | List.replicate length outcome <:+ outcomes}
    (if record.kind = some outcome then record.streak.toNat else 0)
  := by
  rw [h.kind]
  split
  · rename_i goesOn
    have streak := h.streak
    simp only [exists_run_iff goesOn] at streak
    apply streak
  · rename_i breaks
    apply isGreatest_run_of_getLast?_ne breaks

/-- The streak after one more game. -/
theorem exists_streak (h : record.Tallies outcomes) (room : outcomes.length + 1 < 4294967296)
    (outcome : Outcome) :
  ∃ streak, (if record.kind = some outcome then addCounts record.streak 1 else pure 1) = .ok streak
    ∧ IsGreatest {length | List.replicate length outcome <:+ outcomes ++ [outcome]} streak.toNat
  := by
  have run := isGreatest_run_concat (h.isGreatest_run outcome)
  by_cases goesOn : record.kind = some outcome
  · have short : record.streak.toNat ≤ outcomes.length := by
      obtain ⟨outcome', suffix⟩ := h.streak.1
      simpa using suffix.length_le
    have fits : record.streak.toNat + 1 < 4294967296 := by omega
    obtain ⟨streak, added, sum⟩ := exists_increment fits
    refine ⟨streak, by rw [if_pos goesOn, added], ?_⟩
    rw [if_pos goesOn] at run
    rw [sum]
    apply run
  · refine ⟨1, by rw [if_neg goesOn]; rfl, ?_⟩
    rw [if_neg goesOn] at run
    apply run

/-- One more game extends the series that a record tallies, as long as the counters have
room. -/
theorem count (h : record.Tallies outcomes) (room : outcomes.length + 1 < 4294967296)
    (outcome : Outcome) :
  ∃ record', record.count outcome = .ok record' ∧ record'.Tallies (outcomes ++ [outcome])
  := by
  have fits : record.played.toNat + 1 < 4294967296 := by rwa [h.played]
  obtain ⟨played, playedOk, playedNat⟩ := exists_increment fits
  obtain ⟨wins, winsOk, winsNat⟩ := exists_addCounts_if h.wins room outcome
  obtain ⟨losses, lossesOk, lossesNat⟩ := exists_addCounts_if h.losses room outcome
  obtain ⟨streak, streakOk, run⟩ := h.exists_streak room outcome
  refine ⟨_, by rw [count_eq_bind, playedOk, winsOk, lossesOk, streakOk]; rfl, ?_⟩
  constructor
  case played => rw [playedNat, h.played, List.length_append]; rfl
  case wins => apply winsNat
  case losses => apply lossesNat
  case kind => exact List.getLast?_concat.symm
  case streak =>
    simp only [exists_run_iff List.getLast?_concat]
    apply run
  case best =>
    -- the longest run is at the end now or was there before, and only a win can be at the end
    by_cases won : outcome = .win
    · subst won
      rw [if_pos rfl, UInt32.toNat_max, max_comm]
      apply isGreatest_infix_concat h.best run
    · have noRun :
          IsGreatest {length | List.replicate length .win <:+ outcomes ++ [outcome]} 0 := by
        apply isGreatest_run_of_getLast?_ne
        simpa using won
      rw [if_neg won, ← Nat.zero_max record.best.toNat]
      apply isGreatest_infix_concat h.best noRun

end Tallies

/-- The record holds the counts of a series of games and the lengths of its runs, and the counts
that it derives are right as well. -/
structure Summarises (record : Record) (outcomes : List Outcome) : Prop
    extends record.Tallies outcomes where
  draws : ∃ draws, record.draws = .ok draws ∧ draws.toNat = outcomes.count .draw
  winStreak_le : record.winStreak ≤ record.best

namespace Tallies

variable {record : Record} {outcomes : List Outcome}

/-- Games that were neither won nor lost were drawn. -/
theorem draws (h : record.Tallies outcomes) :
  ∃ draws, record.draws = .ok draws ∧ draws.toNat = outcomes.count .draw
  := by
  have parts := count_add_count_add_count outcomes
  have bound := record.played.toNat_lt
  rw [h.played] at bound
  have fits : record.Fits := by
    rw [Fits, h.wins, h.losses]
    omega
  obtain ⟨draws, drawsOk, drawsNat⟩ := exists_draws fits
  refine ⟨draws, drawsOk, ?_⟩
  rw [drawsNat, h.wins, h.losses, h.played]
  omega

/-- The current run of wins is a run of wins. -/
theorem winStreak_le (h : record.Tallies outcomes) :
  record.winStreak ≤ record.best
  := by
  rw [winStreak]
  split
  · rename_i winning
    have run := (h.isGreatest_run .win).1
    rw [if_pos winning] at run
    apply UInt32.le_iff_toNat_le.mpr
    apply h.best.2
    exact List.IsSuffix.isInfix run
  · apply UInt32.le_iff_toNat_le.mpr
    apply Nat.zero_le

theorem summarises (h : record.Tallies outcomes) :
  record.Summarises outcomes
  := ⟨h, h.draws, h.winStreak_le⟩

/-- Only one record tallies a series of games. -/
theorem unique {record' : Record} (h : record.Tallies outcomes)
    (h' : record'.Tallies outcomes) :
  record = record'
  := by
  obtain ⟨wins, losses, played, streak, kind, best⟩ := record
  obtain ⟨wins', losses', played', streak', kind', best'⟩ := record'
  obtain rfl : wins = wins' := UInt32.toNat_inj.mp (h.wins.trans h'.wins.symm)
  obtain rfl : losses = losses' := UInt32.toNat_inj.mp (h.losses.trans h'.losses.symm)
  obtain rfl : played = played' := UInt32.toNat_inj.mp (h.played.trans h'.played.symm)
  obtain rfl : streak = streak' := UInt32.toNat_inj.mp (h.streak.unique h'.streak)
  obtain rfl : kind = kind' := h.kind.trans h'.kind.symm
  obtain rfl : best = best' := UInt32.toNat_inj.mp (h.best.unique h'.best)
  rfl

end Tallies

end Record

/-! ### Histories -/

/-- A game that counts in the statistics. -/
structure Game where
  deck : String
  suits : List String
  outcome : Outcome
deriving DecidableEq, Repr

/-- The statistics after a list of games. -/
def recordAll (games : List Game) : Except Fault Statistics :=
  games.foldlM (fun statistics game => statistics.recordGame game.deck game.suits game.outcome) {}

theorem recordAll_concat (games : List Game) (game : Game) :
  recordAll (games ++ [game])
    = recordAll games >>= fun statistics =>
      statistics.recordGame game.deck game.suits game.outcome
  := by
  rw [recordAll, List.foldlM_append]
  simp only [List.foldlM_cons, List.foldlM_nil, bind_pure]
  rfl

/-- The outcomes of the games that took part under a name. -/
def outcomesUnder (names : Game → List String) (name : String) (games : List Game) :
    List Outcome :=
  (games.filter fun game => name ∈ names game).map (·.outcome)

theorem outcomesUnder_concat (names : Game → List String) (name : String) (games : List Game)
    (game : Game) :
  outcomesUnder names name (games ++ [game])
    = if name ∈ names game then outcomesUnder names name games ++ [game.outcome]
      else outcomesUnder names name games
  := by
  unfold outcomesUnder
  rw [List.filter_append, List.map_append]
  split <;> simp_all

theorem length_outcomesUnder_le (names : Game → List String) (name : String)
    (games : List Game) :
  (outcomesUnder names name games).length ≤ games.length
  := by
  rw [outcomesUnder, List.length_map]
  apply List.length_filter_le

/-- The ledger has records for the names under which games took part, and they tally these
games. -/
structure Tracks (names : Game → List String) (games : List Game) (ledger : Ledger Record) :
    Prop where
  none_iff : ∀ name, ledger.get? name = none ↔ ∀ game ∈ games, name ∉ names game
  tallies : ∀ name, ((ledger.get? name).getD {}).Tallies (outcomesUnder names name games)

namespace Tracks

variable {names : Game → List String} {games : List Game} {ledger : Ledger Record}

theorem empty (names : Game → List String) :
  Tracks names [] .empty
  := by
  constructor
  · intro name
    simp [Ledger.get?, Ledger.empty]
  · intro name
    exact .empty

end Tracks

/-- Counting an outcome under different names counts it once in the record of each of them. -/
theorem exists_countIn_each {suits : List String} {outcome : Outcome} (distinct : suits.Nodup)
    {ledger : Ledger Record}
    (room : ∀ suit ∈ suits, ∃ record, ((ledger.get? suit).getD {}).count outcome = .ok record) :
  ∃ ledger', suits.foldlM (fun ledger suit => countIn ledger suit outcome) ledger = .ok ledger'
  ∧ (∀ suit ∈ suits, ∃ record, ledger'.get? suit = some record
    ∧ ((ledger.get? suit).getD {}).count outcome = .ok record)
  ∧ ∀ name, name ∉ suits → ledger'.get? name = ledger.get? name
  := by
  induction suits generalizing ledger with
  | nil => exact ⟨ledger, rfl, nofun, fun _ _ => rfl⟩
  | cons suit rest ih =>
    obtain ⟨apart, distinct⟩ := List.nodup_cons.mp distinct
    obtain ⟨⟨record, counted⟩, later⟩ := List.forall_mem_cons.mp room
    have first : countIn ledger suit outcome = .ok (ledger.put suit record) := by
      rw [countIn, counted]
      rfl
    have kept : ∀ name, name ≠ suit → (ledger.put suit record).get? name = ledger.get? name := by
      intro name other
      rw [Ledger.get?_put, if_neg other]
    have roomLeft : ∀ suit' ∈ rest,
        ∃ record', (((ledger.put suit record).get? suit').getD {}).count outcome = .ok record' := by
      intro suit' mem
      rw [kept suit' (by rintro rfl; exact apart mem)]
      apply later suit' mem
    obtain ⟨ledger', others, counts, same⟩ := ih distinct roomLeft
    refine ⟨ledger', ?_, ?_, ?_⟩
    · rw [List.foldlM_cons, first]
      apply others
    · refine List.forall_mem_cons.mpr ⟨⟨record, ?_, counted⟩, ?_⟩
      · rw [same suit apart, Ledger.get?_put, if_pos rfl]
      · intro suit' mem
        obtain ⟨record', found, counted'⟩ := counts suit' mem
        rw [kept suit' (by rintro rfl; exact apart mem)] at counted'
        exact ⟨record', found, counted'⟩
    · intro name other
      rw [List.mem_cons, not_or] at other
      rw [same name other.2, kept name other.1]

/-- Counting one more game under its names tracks the longer list of games. -/
theorem Tracks.concat {names : Game → List String} {games : List Game} {ledger : Ledger Record}
    (h : Tracks names games ledger) (game : Game) (distinct : (names game).Nodup)
    (room : games.length + 1 < 4294967296) :
  ∃ ledger', (names game).foldlM (fun ledger name => countIn ledger name game.outcome) ledger
      = .ok ledger'
    ∧ Tracks names (games ++ [game]) ledger'
  := by
  have counts : ∀ name, ∃ record, ((ledger.get? name).getD {}).count game.outcome = .ok record
      ∧ record.Tallies (outcomesUnder names name games ++ [game.outcome]) := by
    intro name
    apply (h.tallies name).count
    have few := length_outcomesUnder_le names name games
    omega
  obtain ⟨ledger', counted, changed, same⟩ := exists_countIn_each distinct
    fun name _ => (counts name).imp fun _ count => count.1
  refine ⟨ledger', counted, ?_, ?_⟩
  · intro name
    rw [List.forall_mem_append, List.forall_mem_singleton]
    by_cases mem : name ∈ names game
    · obtain ⟨record, found, -⟩ := changed name mem
      simp [found, mem]
    · rw [same name mem, h.none_iff]
      simp [mem]
  · intro name
    rw [outcomesUnder_concat]
    by_cases mem : name ∈ names game
    · obtain ⟨record, found, counted⟩ := changed name mem
      obtain ⟨record', counted', tallies⟩ := counts name
      obtain rfl := Except.ok.inj (counted.symm.trans counted')
      rw [if_pos mem, found]
      apply tallies
    · rw [if_neg mem, same name mem]
      apply h.tallies

/-- Fewer than 2 ^ 32 games are all counted, and the records tally them. -/
theorem exists_recordAll {games : List Game} (few : games.length < 4294967296)
    (distinct : ∀ game ∈ games, game.suits.Nodup) :
  ∃ statistics, recordAll games = .ok statistics
  ∧ statistics.base.Tallies (games.map (·.outcome))
  ∧ Tracks (fun game => [game.deck]) games statistics.decks
  ∧ Tracks (·.suits) games statistics.suits
  := by
  induction games using List.reverseRecOn with
  | nil => exact ⟨{}, rfl, .empty, .empty _, .empty _⟩
  | append_singleton games game ih =>
    rw [List.length_append, List.length_singleton] at few
    obtain ⟨earlier, last⟩ := List.forall_mem_append.mp distinct
    obtain ⟨statistics, recorded, base, decks, suits⟩ := ih (by omega) earlier
    obtain ⟨base', baseOk, baseTallies⟩ := base.count (by simpa using few) game.outcome
    obtain ⟨decks', decksOk, decksTrack⟩ := decks.concat game (by simp) few
    obtain ⟨suits', suitsOk, suitsTrack⟩ := suits.concat game (last game List.mem_cons_self) few
    simp only [List.foldlM_cons, List.foldlM_nil, bind_pure] at decksOk
    refine ⟨⟨base', decks', suits'⟩, ?_, ?_, decksTrack, suitsTrack⟩
    · rw [recordAll_concat, recorded, Checked.ok_bind, recordGame, baseOk, decksOk, suitsOk]
      rfl
    · rw [List.map_append]
      apply baseTallies

/-- The ledger has a record exactly for the names under which games took part, and that record
is the only one that summarises these games. -/
structure Reports (names : Game → List String) (games : List Game) (ledger : Ledger Record) :
    Prop where
  none_iff : ∀ name, ledger.get? name = none ↔ ∀ game ∈ games, name ∉ names game
  some_iff : ∀ name record, ledger.get? name = some record
    ↔ (∃ game ∈ games, name ∈ names game) ∧ record.Summarises (outcomesUnder names name games)

theorem Tracks.reports {names : Game → List String} {games : List Game} {ledger : Ledger Record}
    (h : Tracks names games ledger) :
  Reports names games ledger
  where
  none_iff := h.none_iff
  some_iff name record := by
    have tallies := h.tallies name
    have absent := h.none_iff name
    rcases found : ledger.get? name with _ | record'
    · have noGame := absent.mp found
      constructor
      · nofun
      · rintro ⟨⟨game, mem, named⟩, -⟩
        exact absurd named (noGame game mem)
    · rw [found, Option.getD_some] at tallies
      constructor
      · rintro ⟨⟩
        refine ⟨?_, tallies.summarises⟩
        by_contra noGame
        push Not at noGame
        rw [absent.mpr noGame] at found
        contradiction
      · rintro ⟨-, summary⟩
        rw [tallies.unique summary.toTallies]

/-- The statistics of fewer than 2 ^ 32 games are determined by these games: the record of all
games, the record of each deck and the record of each suit summarise the outcomes of the games
that took part, and no other record does.  Under a name the record of the deck is read, and that
of the suit if the deck was never played. -/
theorem recordAll_summarises (games : List Game) (few : games.length < 4294967296)
    (distinct : ∀ game ∈ games, game.suits.Nodup) :
  ∃ statistics, recordAll games = .ok statistics
  ∧ (∀ record, statistics.base = record ↔ record.Summarises (games.map (·.outcome)))
  ∧ Reports (fun game => [game.deck]) games statistics.decks
  ∧ Reports (·.suits) games statistics.suits
  ∧ (∀ name, (∃ game ∈ games, game.deck = name) →
    statistics.decks.get? name = some (statistics.record (some name)))
  ∧ ∀ name, (∀ game ∈ games, game.deck ≠ name) →
    (statistics.suits.get? name).getD {} = statistics.record (some name)
  := by
  obtain ⟨statistics, recorded, base, decks, suits⟩ := exists_recordAll few distinct
  refine ⟨statistics, recorded, ?_, decks.reports, suits.reports, ?_, ?_⟩
  · intro record
    constructor
    · rintro rfl
      apply base.summarises
    · intro summary
      apply base.unique summary.toTallies
  · rintro name ⟨game, mem, rfl⟩
    rcases found : statistics.decks.get? game.deck with _ | entry
    · exact absurd (List.mem_singleton_self _) ((decks.none_iff _).mp found game mem)
    · simp [Statistics.record, found]
  · intro name noDeck
    have absent : statistics.decks.get? name = none := by
      apply (decks.none_iff name).mpr
      intro game mem
      simpa using (noDeck game mem).symm
    simp [Statistics.record, absent]

/-- Two won games and a lost one; a suit of the first deck names the second deck. -/
def season : List Game :=
  [⟨"Classic", ["Boyfriend", "Ex"], .win⟩, ⟨"Classic", ["Ex"], .win⟩, ⟨"Ex", ["Boyfriend"], .loss⟩]

theorem recordAll_summarises_season :
  ∃ statistics, recordAll season = .ok statistics
    ∧ statistics.base = ⟨2, 1, 3, 1, some .loss, 2⟩
    ∧ statistics.base.Summarises [.win, .win, .loss]
    ∧ statistics.suits.get? "Ex" = some ⟨2, 0, 2, 2, some .win, 2⟩
    ∧ (statistics.record (some "Ex")).Summarises [.loss]
  := by
  obtain ⟨statistics, recorded, base, decks, suits, ofDeck, -⟩ :=
    recordAll_summarises season (by decide) (by decide)
  obtain ⟨-, summary⟩ := (decks.some_iff "Ex" _).mp (ofDeck "Ex" (by decide))
  have ran : recordAll season = .ok ⟨⟨2, 1, 3, 1, some .loss, 2⟩, _, _⟩ := rfl
  obtain rfl := Except.ok.inj (ran.symm.trans recorded)
  exact ⟨_, ran, rfl, (base _).mp rfl, rfl, summary⟩

end CardDuel.Statistics
