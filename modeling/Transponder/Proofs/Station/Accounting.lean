import Transponder.Proofs.Station.Feed

/-!
# Every line is accounted for

A receiver is given lines one at a time or many at once, to be counted or not. What it counts on the
way is what the fates of the lines say (`Accounts`): one line adds its own (`Accounts.decode`,
`Accounts.parse`), and accounts of runs that come one after the other add up (`Accounts.trans`). A
counter that is full starts again, which fewer lines than it has values do not bring about
(`Accounts.exact`). Every line has one of five fates (`Fate.length_eq`), hence the counters balance
(`statistics_account`).
-/

namespace Transponder

/-- No counter is ahead of the other statistics. -/
structure Statistics.Le (s t : Statistics) : Prop where
  sentences : s.sentences ≤ t.sentences
  decoded : s.decoded ≤ t.decoded
  pending : s.pending ≤ t.pending
  checksumFailures : s.checksumFailures ≤ t.checksumFailures
  malformed : s.malformed ≤ t.malformed
  truncated : s.truncated ≤ t.truncated

namespace Receiver

variable {r r' : Receiver} {now : Moment} {line : String} {s t u : Statistics}

/-! ## Fates -/

/-- What can become of a line. -/
inductive Fate where
  /-- It gave a message. -/
  | delivered
  /-- Other sentences of its message are still to come. -/
  | pending
  | corrupt
  | truncated
  /-- Anything else is wrong with it. -/
  | malformed
deriving DecidableEq

/-- The fate of a line, by what it is answered with. -/
def fate : Except Error Received → Fate
  | .ok _ => .delivered
  | .error (.incomplete _ _) => .pending
  | .error (.checksumMismatch _ _) => .corrupt
  | .error (.truncated _ _ _) => .truncated
  | .error _ => .malformed

/-- There is no other fate. -/
theorem Fate.length_eq (fates : List Fate) : fates.length =
    fates.count .delivered + fates.count .pending + fates.count .corrupt +
      fates.count .malformed + fates.count .truncated := by
  induction fates with
  | nil => rfl
  | cons f fates ih =>
    simp only [List.length_cons, List.count_cons]
    cases f <;> simp <;> omega

/-- The fates of lines that are decoded one after the other. -/
def fates (r : Receiver) (lines : List (Moment × String)) : List Fate :=
  (r.decodeAll lines).2.map fate

theorem length_fates {lines : List (Moment × String)} : (r.fates lines).length = lines.length := by
  rw [fates, List.length_map, length_decodeAll]

/-- A line is delivered if a message came with it. -/
theorem count_delivered_fate (result : Except Error Received) :
    [fate result].count .delivered = result.toOption.toList.length := by
  cases result with
  | ok received => rfl
  | error e => cases e <;> rfl

/-! ## What the counters say -/

/-- From `s` to `t`, lines were counted that had the fates `counted`, and others were decoded
without being counted that had the fates `direct`. -/
structure Accounts (s t : Statistics) (direct counted : List Fate) : Prop where
  sentences : t.sentences = s.sentences + .ofNat counted.length
  decoded : t.decoded = s.decoded + .ofNat (direct.count .delivered + counted.count .delivered)
  pending : t.pending = s.pending + .ofNat (counted.count .pending)
  checksumFailures : t.checksumFailures = s.checksumFailures + .ofNat (counted.count .corrupt)
  malformed : t.malformed = s.malformed + .ofNat (counted.count .malformed)
  truncated : t.truncated = s.truncated + .ofNat (counted.count .truncated)

/-- Lines with the fates `counted` and `direct` are all that the counters say, and no counter has
started again. -/
structure Exact (t : Statistics) (direct counted : List Fate) : Prop where
  sentences : t.sentences.toNat = counted.length
  decoded : t.decoded.toNat = direct.count .delivered + counted.count .delivered
  pending : t.pending.toNat = counted.count .pending
  checksumFailures : t.checksumFailures.toNat = counted.count .corrupt
  malformed : t.malformed.toNat = counted.count .malformed
  truncated : t.truncated.toNat = counted.count .truncated

section Counters

variable {direct direct' counted counted' : List Fate} {m n : Nat}

/-- Counts on one counter add up, also if it starts again. -/
theorem add_ofNat (c : UInt64) (m n : Nat) : c + .ofNat m + .ofNat n = c + .ofNat (m + n) := by
  rw [UInt64.ofNat_add, UInt64.add_assoc]

theorem toNat_zero_add_ofNat (h : n < UInt64.size) : ((0 : UInt64) + .ofNat n).toNat = n := by
  rw [UInt64.zero_add, UInt64.toNat_ofNat_of_lt' h]

namespace Accounts

theorem refl (s : Statistics) : Accounts s s [] [] := by
  constructor <;> exact (UInt64.add_zero _).symm

theorem trans (h : Accounts s t direct counted) (h' : Accounts t u direct' counted') :
    Accounts s u (direct ++ direct') (counted ++ counted') where
  sentences := by rw [h'.sentences, h.sentences, add_ofNat, List.length_append]
  decoded := by
    rw [h'.decoded, h.decoded, add_ofNat, List.count_append, List.count_append,
      Nat.add_add_add_comm]
  pending := by rw [h'.pending, h.pending, add_ofNat, List.count_append]
  checksumFailures := by
    rw [h'.checksumFailures, h.checksumFailures, add_ofNat, List.count_append]
  malformed := by rw [h'.malformed, h.malformed, add_ofNat, List.count_append]
  truncated := by rw [h'.truncated, h.truncated, add_ofNat, List.count_append]

/-- From the start, a counter does not start again over fewer lines than it has values. -/
theorem exact (h : Accounts {} t direct counted)
    (hsize : direct.length + counted.length < UInt64.size) : Exact t direct counted := by
  have hcases := Fate.length_eq counted
  have hdelivered : direct.count .delivered ≤ direct.length := List.count_le_length
  constructor
  · rw [h.sentences, toNat_zero_add_ofNat (by omega)]
  · rw [h.decoded, toNat_zero_add_ofNat (by omega)]
  · rw [h.pending, toNat_zero_add_ofNat (by omega)]
  · rw [h.checksumFailures, toNat_zero_add_ofNat (by omega)]
  · rw [h.malformed, toNat_zero_add_ofNat (by omega)]
  · rw [h.truncated, toNat_zero_add_ofNat (by omega)]

end Accounts

namespace Exact

/-- Nothing is ever taken back. -/
theorem le (h : Exact s direct counted) (h' : Exact t (direct ++ direct') (counted ++ counted')) :
    s.Le t := by
  have hdirect : (direct ++ direct').count .delivered = _ := List.count_append
  have hcounted : ∀ f, (counted ++ counted').count f = counted.count f + counted'.count f :=
    fun _ => List.count_append
  constructor
  · rw [UInt64.le_iff_toNat_le, h.sentences, h'.sentences, List.length_append]; omega
  · rw [UInt64.le_iff_toNat_le, h.decoded, h'.decoded, hdirect, hcounted]; omega
  · rw [UInt64.le_iff_toNat_le, h.pending, h'.pending, hcounted]; omega
  · rw [UInt64.le_iff_toNat_le, h.checksumFailures, h'.checksumFailures, hcounted]; omega
  · rw [UInt64.le_iff_toNat_le, h.malformed, h'.malformed, hcounted]; omega
  · rw [UInt64.le_iff_toNat_le, h.truncated, h'.truncated, hcounted]; omega

/-- What was counted has become a message or a failure, and each message counts. -/
theorem balance (h : Exact t direct counted) : t.sentences.toNat + direct.count .delivered =
    t.decoded.toNat + t.pending.toNat + t.checksumFailures.toNat + t.malformed.toNat +
      t.truncated.toNat := by
  have hcases := Fate.length_eq counted
  rw [h.sentences, h.decoded, h.pending, h.checksumFailures, h.malformed, h.truncated]
  omega

/-- Nothing is counted more often than there are lines. -/
theorem le_length (h : Exact t direct counted) (hn : direct.length + counted.length = n)
    (hsize : n < UInt64.size) : t.Le ⟨.ofNat n, .ofNat n, .ofNat n, .ofNat n, .ofNat n, .ofNat n⟩ := by
  have hcases := Fate.length_eq counted
  have hdelivered : direct.count .delivered ≤ direct.length := List.count_le_length
  have hbound : (UInt64.ofNat n).toNat = n := UInt64.toNat_ofNat_of_lt' hsize
  constructor
  · rw [UInt64.le_iff_toNat_le, hbound, h.sentences]; omega
  · rw [UInt64.le_iff_toNat_le, hbound, h.decoded]; omega
  · rw [UInt64.le_iff_toNat_le, hbound, h.pending]; omega
  · rw [UInt64.le_iff_toNat_le, hbound, h.checksumFailures]; omega
  · rw [UInt64.le_iff_toNat_le, hbound, h.malformed]; omega
  · rw [UInt64.le_iff_toNat_le, hbound, h.truncated]; omega

end Exact

end Counters

/-! ## One line -/

/-- To decode a line changes a counter only if it gives a message. -/
theorem statistics_decode (r : Receiver) (now : Moment) (line : String) :
    (r.decode now line).1.statistics =
      match (r.decode now line).2 with
      | .ok _ => { r.statistics with decoded := r.statistics.decoded + 1 }
      | .error _ => r.statistics := by
  rw [decode]
  split
  next e hparse => rfl
  next s hparse =>
    dsimp only
    split
    next received hopen => rfl
    next e hopen => rfl

theorem Accounts.decode (r : Receiver) (now : Moment) (line : String) :
    Accounts r.statistics (r.decode now line).1.statistics [fate (r.decode now line).2] [] := by
  rw [statistics_decode]
  have hzero : ∀ c : UInt64, c = c + .ofNat 0 := fun c => (UInt64.add_zero c).symm
  cases (r.decode now line).2 with
  | ok received => exact ⟨hzero _, rfl, hzero _, hzero _, hzero _, hzero _⟩
  | error e =>
    refine ⟨hzero _, ?_, hzero _, hzero _, hzero _, hzero _⟩
    rw [count_delivered_fate]
    exact hzero _

/-- An error is counted where its fate says. -/
theorem Accounts.countFailure (s : Statistics) (e : Error) :
    Accounts s (countFailure { s with sentences := s.sentences + 1 } e) [] [fate (.error e)] := by
  cases e <;> constructor <;> first | rfl | exact (UInt64.add_zero _).symm

theorem Accounts.parse (r : Receiver) (now : Moment) (line : String) :
    Accounts r.statistics (r.parse now line).1.statistics [] [fate (r.decode now line).2] := by
  have hcounted : Agrees { r with statistics.sentences := r.statistics.sentences + 1 } r :=
    ⟨rfl, rfl⟩
  obtain ⟨hresult, -⟩ : _ ∧ Agrees _ (r.decode now line).1 := hcounted.decode
  have hstatistics := statistics_decode
    { r with statistics.sentences := r.statistics.sentences + 1 } now line
  rw [← hresult, Receiver.parse]
  dsimp only
  split
  next next received hdecode =>
    rw [hdecode] at hstatistics ⊢
    dsimp only at hstatistics ⊢
    rw [hstatistics]
    have hzero : ∀ c : UInt64, c = c + .ofNat 0 := fun c => (UInt64.add_zero c).symm
    exact ⟨rfl, rfl, hzero _, hzero _, hzero _, hzero _⟩
  next next e hdecode =>
    rw [hdecode] at hstatistics ⊢
    dsimp only at hstatistics ⊢
    rw [hstatistics]
    exact .countFailure r.statistics e

/-! ## Many lines -/

theorem fates_cons {lines : List (Moment × String)} : r.fates ((now, line) :: lines) =
    fate (r.decode now line).2 :: (r.decode now line).1.fates lines :=
  rfl

theorem Agrees.fates (h : Agrees r r') (lines : List (Moment × String)) :
    r.fates lines = r'.fates lines :=
  congrArg (List.map fate) h.decodeAll.1

theorem Accounts.parseAll (r : Receiver) (lines : List (Moment × String)) :
    Accounts r.statistics (r.parseAll lines).1.statistics [] (r.fates lines) := by
  induction lines generalizing r with
  | nil => exact .refl _
  | cons l lines ih =>
    obtain ⟨now, line⟩ := l
    rw [parseAll_cons, fates_cons, ← (parse_eq r now line).2.fates lines]
    exact (Accounts.parse r now line).trans (ih _)

/-! ## Many jobs -/

/-- Takes a line and counts it, and keeps only the message. -/
def parseMessage (r : Receiver) (now : Moment) (line : String) : Receiver × Option Message :=
  let (r, received) := r.parse now line
  (r, received.map (·.message))

/-- What a receiver does with lines. -/
inductive Job where
  | decode (now : Moment) (line : String)
  | parse (now : Moment) (line : String)
  | parseMessage (now : Moment) (line : String)
  | parseAll (lines : List (Moment × String))

/-- What comes of a job. -/
inductive Answer where
  | result (result : Except Error Received)
  | received (received : Option Received)
  | message (message : Option Message)
  | messages (messages : List Message)

/-- How many messages came of a job. -/
def Answer.successes : Answer → Nat
  | .result (.ok _) => 1
  | .result (.error _) => 0
  | .received r => r.toList.length
  | .message m => m.toList.length
  | .messages ms => ms.length

/-- Whether the answer is the message of a line that was decoded without being counted. -/
def Answer.isDirect : Answer → Bool
  | .result (.ok _) => true
  | _ => false

namespace Job

def perform (r : Receiver) : Job → Receiver × Answer
  | decode now line => (r.decode now line).map id .result
  | parse now line => (r.parse now line).map id .received
  | parseMessage now line => (r.parseMessage now line).map id .message
  | parseAll lines => (r.parseAll lines).map id .messages

/-- The lines that are counted. -/
def counted : Job → List (Moment × String)
  | decode _ _ => []
  | parse now line | parseMessage now line => [(now, line)]
  | parseAll lines => lines

/-- The lines that are decoded without being counted. -/
def direct : Job → List (Moment × String)
  | decode now line => [(now, line)]
  | parse _ _ | parseMessage _ _ | parseAll _ => []

end Job

def performAll (r : Receiver) : List Job → Receiver × List Answer
  | [] => (r, [])
  | job :: jobs =>
    let (r, answer) := job.perform r
    let (r, answers) := r.performAll jobs
    (r, answer :: answers)

/-- The fates of the lines that jobs count, each decoded where it comes. -/
def countedFates (r : Receiver) : List Job → List Fate
  | [] => []
  | job :: jobs => r.fates job.counted ++ (job.perform r).1.countedFates jobs

/-- The fates of the other lines. -/
def directFates (r : Receiver) : List Job → List Fate
  | [] => []
  | job :: jobs => r.fates job.direct ++ (job.perform r).1.directFates jobs

variable {job : Job} {jobs : List Job}

theorem Accounts.perform (r : Receiver) (job : Job) : Accounts r.statistics
    (job.perform r).1.statistics (r.fates job.direct) (r.fates job.counted) :=
  match job with
  | .decode now line => .decode r now line
  | .parse now line | .parseMessage now line => .parse r now line
  | .parseAll lines => .parseAll r lines

theorem Accounts.performAll (r : Receiver) (jobs : List Job) : Accounts r.statistics
    (r.performAll jobs).1.statistics (r.directFates jobs) (r.countedFates jobs) := by
  induction jobs generalizing r with
  | nil => exact .refl _
  | cons job jobs ih => exact (Accounts.perform r job).trans (ih _)

theorem performAll_cons : r.performAll (job :: jobs) =
    (((job.perform r).1.performAll jobs).1,
      (job.perform r).2 :: ((job.perform r).1.performAll jobs).2) :=
  rfl

theorem performAll_append {more : List Job} : r.performAll (jobs ++ more) =
    (((r.performAll jobs).1.performAll more).1,
      (r.performAll jobs).2 ++ ((r.performAll jobs).1.performAll more).2) := by
  induction jobs generalizing r with
  | nil => rfl
  | cons job jobs ih =>
    rw [List.cons_append, performAll_cons, performAll_cons, ih]
    rfl

theorem length_countedFates (r : Receiver) (jobs : List Job) :
    (r.countedFates jobs).length = (jobs.map (·.counted.length)).sum := by
  induction jobs generalizing r with
  | nil => rfl
  | cons job jobs ih =>
    rw [countedFates, List.length_append, length_fates, ih, List.map_cons, List.sum_cons]

theorem length_directFates (r : Receiver) (jobs : List Job) :
    (r.directFates jobs).length = (jobs.map (·.direct.length)).sum := by
  induction jobs generalizing r with
  | nil => rfl
  | cons job jobs ih =>
    rw [directFates, List.length_append, length_fates, ih, List.map_cons, List.sum_cons]

/-! ## What comes of the jobs -/

/-- The messages of a batch come of the lines that were delivered. -/
theorem length_messages (r : Receiver) (lines : List (Moment × String)) :
    (r.parseAll lines).2.length = (r.fates lines).count .delivered := by
  rw [(parseAll_eq r lines).1, fates]
  induction (r.decodeAll lines).2 with
  | nil => rfl
  | cons result results ih =>
    rw [List.map_cons, List.count_cons, ← List.count_singleton, count_delivered_fate, ← ih,
      List.filterMap_cons, message?]
    cases result.toOption <;> rfl

theorem successes_perform (r : Receiver) (job : Job) : (job.perform r).2.successes =
    (r.fates job.direct).count .delivered + (r.fates job.counted).count .delivered := by
  cases job with
  | decode now line =>
    change Answer.successes (.result (r.decode now line).2) =
      [fate (r.decode now line).2].count .delivered
    rw [count_delivered_fate]
    cases (r.decode now line).2 <;> rfl
  | parse now line =>
    change (r.parse now line).2.toList.length = 0 + [fate (r.decode now line).2].count .delivered
    rw [(parse_eq r now line).1, count_delivered_fate, Nat.zero_add]
  | parseMessage now line =>
    change ((r.parse now line).2.map (·.message)).toList.length =
      0 + [fate (r.decode now line).2].count .delivered
    rw [(parse_eq r now line).1, count_delivered_fate, Nat.zero_add]
    cases (r.decode now line).2.toOption <;> rfl
  | parseAll lines => exact (length_messages r lines).trans (Nat.zero_add _).symm

theorem successes_performAll (r : Receiver) (jobs : List Job) :
    ((r.performAll jobs).2.map (·.successes)).sum =
      (r.directFates jobs).count .delivered + (r.countedFates jobs).count .delivered := by
  induction jobs generalizing r with
  | nil => rfl
  | cons job jobs ih =>
    rw [performAll_cons, List.map_cons, List.sum_cons, ih, successes_perform, directFates,
      countedFates, List.count_append, List.count_append]
    omega

theorem isDirect_perform (r : Receiver) (job : Job) :
    (if (job.perform r).2.isDirect then 1 else 0) = (r.fates job.direct).count .delivered := by
  cases job with
  | decode now line =>
    change (if (Answer.result (r.decode now line).2).isDirect then 1 else 0) =
      [fate (r.decode now line).2].count .delivered
    rw [count_delivered_fate]
    cases (r.decode now line).2 <;> rfl
  | parse now line => rfl
  | parseMessage now line => rfl
  | parseAll lines => rfl

theorem isDirect_performAll (r : Receiver) (jobs : List Job) :
    (r.performAll jobs).2.countP (·.isDirect) = (r.directFates jobs).count .delivered := by
  induction jobs generalizing r with
  | nil => rfl
  | cons job jobs ih =>
    rw [performAll_cons, List.countP_cons, ih, isDirect_perform, directFates, List.count_append,
      Nat.add_comm]

/-- The lines that jobs are given, to be counted or not. -/
def linesGiven (jobs : List Job) : Nat :=
  (jobs.map (·.direct.length)).sum + (jobs.map (·.counted.length)).sum

/-- After fewer lines than a counter has values, the counters say what has become of them. -/
theorem exact_performAll (settings : ReceiverSettings) (hsize : linesGiven jobs < UInt64.size) :
    Exact ((start settings).performAll jobs).1.statistics ((start settings).directFates jobs)
      ((start settings).countedFates jobs) := by
  refine (Accounts.performAll (start settings) jobs).exact ?_
  rwa [length_directFates, length_countedFates]

theorem directFates_append {more : List Job} : r.directFates (jobs ++ more) =
    r.directFates jobs ++ (r.performAll jobs).1.directFates more := by
  induction jobs generalizing r with
  | nil => rfl
  | cons job jobs ih => rw [List.cons_append, directFates, ih, directFates, List.append_assoc]; rfl

theorem countedFates_append {more : List Job} : r.countedFates (jobs ++ more) =
    r.countedFates jobs ++ (r.performAll jobs).1.countedFates more := by
  induction jobs generalizing r with
  | nil => rfl
  | cons job jobs ih => rw [List.cons_append, countedFates, ih, countedFates, List.append_assoc]; rfl

theorem linesGiven_append {more : List Job} :
    linesGiven (jobs ++ more) = linesGiven jobs + linesGiven more := by
  simp only [linesGiven, List.map_append, List.sum_append]
  omega

/-- Whatever jobs a receiver has done since it started, with fewer lines than a counter has values:
it has counted the lines it was to count, and each failure of one of them for what it is; it has
counted every message that came of a job, also of those lines that were not to be counted. Hence the
counters balance. No counter ever goes back, and none is more than the number of lines. -/
theorem statistics_account (settings : ReceiverSettings) (jobs more : List Job)
    (hsize : linesGiven (jobs ++ more) < UInt64.size) :
    let run := (start settings).performAll jobs
    let s := run.1.statistics
    let fates := (start settings).countedFates jobs
    let given : UInt64 := .ofNat (linesGiven jobs)
    s.sentences.toNat = (jobs.map (·.counted.length)).sum ∧ fates.length = s.sentences.toNat ∧
      s.pending.toNat = fates.count .pending ∧ s.checksumFailures.toNat = fates.count .corrupt ∧
      s.truncated.toNat = fates.count .truncated ∧ s.malformed.toNat = fates.count .malformed ∧
      s.decoded.toNat = (run.2.map (·.successes)).sum ∧
      s.sentences.toNat + run.2.countP (·.isDirect) =
        s.decoded.toNat + s.pending.toNat + s.checksumFailures.toNat + s.malformed.toNat +
          s.truncated.toNat ∧
      s.Le ((start settings).performAll (jobs ++ more)).1.statistics ∧
      s.Le ⟨given, given, given, given, given, given⟩ := by
  intro run s fates given
  have hfewer : linesGiven jobs < UInt64.size := by
    rw [linesGiven_append] at hsize
    omega
  have h : Exact s ((start settings).directFates jobs) fates := exact_performAll settings hfewer
  have hmore := exact_performAll settings hsize
  rw [directFates_append, countedFates_append] at hmore
  have hcounted : fates.length = (jobs.map (·.counted.length)).sum := length_countedFates _ _
  have hdirect : ((start settings).directFates jobs).length = (jobs.map (·.direct.length)).sum :=
    length_directFates _ _
  refine ⟨h.sentences.trans hcounted, h.sentences.symm, h.pending, h.checksumFailures, h.truncated,
    h.malformed, ?_, ?_, h.le hmore, h.le_length (by rw [hdirect, hcounted]; rfl) hfewer⟩
  · rw [successes_performAll]
    exact h.decoded
  · rw [isDirect_performAll]
    exact h.balance

/-- Two fragments and a damaged line that are counted or not, in jobs of all kinds. -/
def mixedJobs : List Job :=
  [.decode (.ofNanoseconds 0) firstPart,
    .parseAll [(.ofNanoseconds 1, damagedPart), (.ofNanoseconds 2, secondPart)],
    .parse (.ofNanoseconds 3) firstPart, .decode (.ofNanoseconds 4) secondPart,
    .parseMessage (.ofNanoseconds 5) "!"]

/-- Of the lines that are only decoded, the message is in the balance and the fragment is not. -/
theorem statistics_account_mixedJobs :
    let run := (start {}).performAll mixedJobs
    let s := run.1.statistics
    linesGiven (mixedJobs ++ mixedJobs) = 12 ∧
      (s.sentences, s.decoded, s.pending, s.checksumFailures, s.malformed, s.truncated) =
        (4, 2, 1, 1, 1, 0) ∧
      run.2.countP (·.isDirect) = 1 ∧ (run.2.map (·.successes)).sum = 2 ∧
      s.Le ((start {}).performAll (mixedJobs ++ mixedJobs)).1.statistics := by
  have hgiven : linesGiven (mixedJobs ++ mixedJobs) = 12 := by decide
  have hsize : 12 < UInt64.size := by decide
  obtain ⟨-, -, -, -, -, -, -, -, hle, -⟩ :=
    statistics_account {} mixedJobs mixedJobs (hgiven ▸ hsize)
  exact ⟨hgiven, by decide +kernel, by decide +kernel, by decide +kernel, hle⟩

end Receiver

end Transponder
