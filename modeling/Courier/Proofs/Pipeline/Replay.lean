import Courier.Proofs.Pipeline.Agreement
import Courier.Proofs.Pipeline.Entries

/-!
# Repeated requests

Requests are answered one after the other, each in a turn of its own (`serve`). When no turn is
interrupted and the cache keeps entries, a turn is one of four (`Turn.Outcome`): without a key, it
goes through all steps and the cache is not asked at all; with a key, the entry of that key decides
whether the reply in it is given, or the steps are gone through and a reply, if they come to one, is
kept. From the four and from what the cache holds after each (`Outcome.entry_eq`), by induction
along the turns, follows what a repeated request is answered, for as long as its entry is there
(`serve_replays`).
-/

set_option autoImplicit false

namespace Courier

open Backend (told keepings lookups)

/-- A request that was answered: the history before it, its context, what was asked for it, and the
result. -/
structure Turn where
  past : List (Exchange Backend)
  ctx : Context
  request : Request
  log : List (Exchange Backend)
  result : Except Failure Reply

namespace Pipeline

/-- Answers requests one after the other. -/
def serve (p : Pipeline) (w : Surroundings Backend) :
    List (Context × Request) → List (Exchange Backend) → List Turn
  | [], _ => []
  | (ctx, request) :: rest, past =>
    let run := (p.process ctx request).play w past
    ⟨past, ctx, request, run.1, run.2⟩ :: p.serve w rest (past ++ run.1)

end Pipeline

/-! ## What a course says about the cache -/

theorem Replies.text_of_recalled
    {answer : Except Interruption (Except CacheFailure (Option String))} {reply : Reply}
    (hit : recalled answer = some reply) : ∃ text, answer = .ok (.ok (some text)) := by
  rcases answer with i | (f | (_ | text))
  · cases hit
  · cases hit
  · cases hit
  · exact ⟨text, rfl⟩

namespace Pipeline

variable {p : Pipeline} {ctx : Context} {request : Request} {log : List (Exchange Backend)}
  {result : Except Failure Reply}

/-- The steps do not ask the cache. -/
theorem Course.uncached (h : Course p ctx request log result) :
    keepings log = [] ∧ lookups log = [] := by
  cases h with
  | unknown | settled | unsettled | unrendered | uncreated | unpublished => exact ⟨rfl, rfl⟩
  | queued prefs wanted recipient reached rendered stamp record fresh delivery made =>
    rw [tracking]
    split
    · exact ⟨rfl, rfl⟩
    · exact ⟨rfl, rfl⟩

/-- The time of a reply is the one of its record's stamp. -/
theorem Course.stamped {reply : Reply} (h : Course p ctx request log (.ok reply)) :
    ∃ stamp, told .stamp stamp ∈ log ∧ reply.createdAt = stamp.time := by
  cases h with
  | settled prefs status error stage message verdict stamp =>
    exact ⟨stamp, List.mem_cons_of_mem _ List.mem_cons_self, rfl⟩
  | queued prefs wanted recipient reached rendered stamp record fresh delivery made =>
    refine ⟨stamp, ?_, by rw [fresh]; rfl⟩
    refine List.mem_append_left _ (List.mem_cons_of_mem _ (List.mem_cons_of_mem _ ?_))
    exact List.mem_cons_self

end Pipeline

/-! ## Turns

One request of a history, with what it exchanged and what was exchanged before. `Outcome` lists the
four ways a turn can go, as far as the cache is concerned; all that follows is by cases on it.
-/

namespace Turn

/-- The turn is a run of the pipeline in its surroundings. -/
def Played (p : Pipeline) (w : Surroundings Backend) (t : Turn) : Prop :=
  (p.process t.ctx t.request).play w t.past = (t.log, t.result)

variable {w : Surroundings Backend}

/-- The context of the request may still go on when the last answer is there. -/
def Uninterrupted (line : Schedule w) (t : Turn) : Prop :=
  t.ctx.check (line.answered (t.past ++ t.log)) = .ok ()

/-- The steps are gone through, beginning with the preferences of the user. -/
def Executed (t : Turn) : Prop :=
  ∃ answer, told (.preferences t.ctx t.request.userId) answer ∈ t.log

/-- When the question after the first one is dealt with: the one for the entry, if there is a
key. -/
def lookedUp (line : Schedule w) (t : Turn) : Nat := line.time (t.past ++ t.log.take 1)

/-- When the last question is dealt with: the one that keeps the reply, if one is kept. -/
def concluded (line : Schedule w) (t : Turn) : Nat := line.time (t.past ++ t.log.dropLast)

/-- The reply is given from the entry of a key. Besides the clock only the cache is asked, and only
for that entry. -/
def Repeats (t : Turn) (key : String) (reply : Reply) : Prop :=
  t.result = .ok reply ∧ ∃ now text, t.log =
    [told .now now, told (.cacheGet t.ctx (Replies.entryName key)) (.ok (.ok (some text)))]

/-- No reply can be had from the entry of a key. -/
def Misses (line : Schedule w) (t : Turn) (key : String) : Prop :=
  ∀ e, entry line.time t.past (Replies.entryName key) = some e → t.lookedUp line < e.gone →
    Replies.read? e.text = none

/-- Until when the reply is kept that a turn ends with. -/
def gone (p : Pipeline) (line : Schedule w) (t : Turn) : Nat :=
  t.concluded line + Cache.lifetime p.replyTtl

/-- A turn goes through the steps for a key, and keeps the reply they come to as its last act. -/
structure Keeps (p : Pipeline) (t : Turn) (key : String) (reply : Reply) : Prop where
  executed : t.Executed
  keyed : t.request.key? = some key
  result : t.result = .ok reply
  legible : Replies.read? (Reply.codec.text reply) = some reply
  last : ∃ before, keepings before = [] ∧ lookups before = [Replies.entryName key] ∧
    t.log = before ++ [told (p.keeping t.ctx key reply) (.ok (.ok ()))]

/-- How a turn goes that is not interrupted, with a cache that keeps entries. -/
inductive Outcome (p : Pipeline) (line : Schedule w) (t : Turn) : Prop
  | keyless (bare : t.request.key? = none) (executed : t.Executed)
      (unkept : keepings t.log = []) (unasked : lookups t.log = [])
  | repeated (key : String) (keyed : t.request.key? = some key) (e : Entry) (reply : Reply)
      (there : entry line.time t.past (Replies.entryName key) = some e)
      (early : t.lookedUp line < e.gone) (legible : Replies.read? e.text = some reply)
      (repeats : t.Repeats key reply)
  | failed (key : String) (keyed : t.request.key? = some key) (missed : t.Misses line key)
      (f : Failure) (result : t.result = .error f) (executed : t.Executed)
      (unkept : keepings t.log = []) (asked : lookups t.log = [Replies.entryName key])
  | kept (key : String) (reply : Reply) (missed : t.Misses line key)
      (keeps : t.Keeps p key reply)

variable {p : Pipeline} {line : Schedule w} {t : Turn} {key : String}
  {before later : List (Exchange Backend)} {x : Exchange Backend}

theorem Played.answer (played : t.Played p w) (asked : t.log = before ++ x :: later) :
    x.answer = w (t.past ++ before) x.op := by
  have log : ((p.process t.ctx t.request).play w t.past).1 = before ++ x :: later := by
    rw [played]
    exact asked
  exact Flow.play_answer log

theorem Uninterrupted.still (going : t.Uninterrupted line) (asked : t.log = before ++ x :: later) :
    t.ctx.check (line.answered (t.past ++ before ++ [x])) = .ok () := by
  refine Context.check_mono going ?_
  rw [asked]
  exact line.answered_mono _ _ _ _

/-- The cache answers what it holds. -/
theorem Played.found (played : t.Played p w) (going : t.Uninterrupted line)
    (keeps : KeepsEntries line) (taken : ∀ x ∈ t.past, x.Taken) {now : Nat} {name : String}
    {answer : Except Interruption (Except CacheFailure (Option String))}
    (asked : t.log = told .now now :: told (.cacheGet t.ctx name) answer :: later) :
    Replies.recalled answer = (entry line.time t.past name).bind fun e =>
      if t.lookedUp line < e.gone then Replies.read? e.text else none := by
  have asked' : t.log = [told .now now] ++ told (.cacheGet t.ctx name) answer :: later := asked
  have given : answer = w (t.past ++ [told .now now]) (.cacheGet t.ctx name) :=
    played.answer asked'
  have taken' : ∀ x ∈ t.past ++ [told .now now], x.Taken := by
    intro x hx
    rcases List.mem_append.1 hx with hx | hx
    · exact taken x hx
    · rw [List.mem_singleton.1 hx]
      trivial
  have same : entry line.time (t.past ++ [told .now now]) name = entry line.time t.past name :=
    entry_append_of_others fun k hk => absurd hk List.not_mem_nil
  have time : t.lookedUp line = line.time (t.past ++ [told .now now]) := by
    rw [lookedUp, asked]
    rfl
  -- an interruption would have to come before the turn is over
  rcases keeps.answers _ t.ctx name taken' with h | ⟨why, h, ended⟩
  · rw [given, h, held, same, ← time]
    cases entry line.time t.past name with
    | none => rfl
    | some e =>
      show Replies.recalled (.ok (.ok (if t.lookedUp line < e.gone then some e.text else none))) =
        if t.lookedUp line < e.gone then Replies.read? e.text else none
      split <;> rfl
  · rw [← given] at h
    rw [h] at asked'
    exact absurd (going.still asked') ended

/-- The cache takes the reply that a turn ends with. -/
theorem Played.taken (played : t.Played p w) (going : t.Uninterrupted line)
    (keeps : KeepsEntries line) (taken : ∀ x ∈ t.past, x.Taken) {name text : String} {ttl : Nat}
    {stored : Except Interruption (Except CacheFailure Unit)}
    (unkept : keepings before = [])
    (asked : t.log = before ++ [told (.cacheSet t.ctx name text ttl) stored]) :
    stored = .ok (.ok ()) := by
  have given : stored = w (t.past ++ before) (.cacheSet t.ctx name text ttl) := played.answer asked
  have taken' : ∀ x ∈ t.past ++ before, x.Taken := fun x hx =>
    (List.mem_append.1 hx).elim (taken x) (taken_of_keepings_nil unkept x)
  rcases keeps.takes _ t.ctx name text ttl taken' with h | ⟨why, h, ended⟩
  · exact given.trans h
  · rw [← given] at h
    rw [h] at asked
    exact absurd (going.still asked) ended

/-- A reply that is kept can be read again. -/
theorem Played.legible (played : t.Played p w)
    (dated : ∀ past, (w past .stamp : Stamp).time.Datable)
    {log : List (Exchange Backend)} {reply : Reply} (sub : ∀ x ∈ log, x ∈ t.log)
    (course : p.Course t.ctx t.request log (.ok reply)) :
    Replies.read? (Reply.codec.text reply) = some reply := by
  obtain ⟨stamp, mem, time⟩ := course.stamped
  obtain ⟨before, later, asked⟩ := List.append_of_mem (sub _ mem)
  have given : stamp = w (t.past ++ before) .stamp := played.answer asked
  have datable : reply.createdAt.Datable := by
    rw [time, given]
    exact dated _
  exact Replies.read?_text datable

/-- No reply can be had from the entry when none is found. -/
theorem Played.misses (played : t.Played p w) (going : t.Uninterrupted line)
    (keeps : KeepsEntries line) (taken : ∀ x ∈ t.past, x.Taken) {now : Nat}
    {answer : Except Interruption (Except CacheFailure (Option String))}
    (missed : Replies.recalled answer = none)
    (asked : t.log = told .now now ::
      told (.cacheGet t.ctx (Replies.entryName key)) answer :: later) : t.Misses line key := by
  rw [played.found going keeps taken asked] at missed
  intro e there early
  rw [there] at missed
  exact (if_pos early).symm.trans missed

/-- The context has not been interrupted when the clock is looked at. -/
theorem Played.running (played : t.Played p w) (going : t.Uninterrupted line) {now : Nat}
    (asked : t.log = told .now now :: later) : t.ctx.check now = .ok () := by
  have shown : (told .now now).answer = w (t.past ++ []) .now := played.answer asked
  rw [List.append_nil] at shown
  have still : t.ctx.check (line.answered (t.past ++ [] ++ [told .now now])) = .ok () :=
    going.still asked
  rw [List.append_nil] at still
  -- the clock shows the time at which the question is dealt with, and the answer comes after it
  have time : now = line.time t.past := shown.trans (line.shown t.past)
  rw [time]
  exact Context.check_mono still (line.dealt_le _ _)

/-- **A turn that is not interrupted is one of four.** -/
theorem Played.outcome (played : t.Played p w) (going : t.Uninterrupted line)
    (keeps : KeepsEntries line) (dated : ∀ past, (w past .stamp : Stamp).time.Datable)
    (taken : ∀ x ∈ t.past, x.Taken) : Outcome p line t := by
  have passage := Pipeline.process_passage (Flow.play_runs w (p.process t.ctx t.request) t.past)
  rw [played] at passage
  dsimp only at passage
  generalize hl : t.log = log at passage
  generalize hr : t.result = result at passage
  cases passage with
  -- the turn would have been interrupted, against the assumption
  | interrupted now why ended =>
    rw [played.running going hl] at ended
    cases ended
  | @keyless now runs bare steps _ course =>
    obtain ⟨answer, mem⟩ := course.asks
    have executed : t.Executed := ⟨answer, hl ▸ List.mem_cons_of_mem _ mem⟩
    exact .keyless bare executed (hl ▸ course.uncached.1) (hl ▸ course.uncached.2)
  | repeated now runs key keyed answer reply hit =>
    have found := played.found going keeps taken hl
    rw [hit] at found
    obtain ⟨e, there, read⟩ := Option.bind_eq_some_iff.1 found.symm
    obtain ⟨early, legible⟩ := Option.ite_none_right_eq_some.1 read
    obtain ⟨text, rfl⟩ := Replies.text_of_recalled hit
    exact .repeated key keyed e reply there early legible ⟨hr, now, text, hl⟩
  | @failed now runs key keyed answer missed steps f course =>
    obtain ⟨answer', mem⟩ := course.asks
    have executed : t.Executed :=
      ⟨answer', hl ▸ List.mem_cons_of_mem _ (List.mem_cons_of_mem _ mem)⟩
    have asked : lookups t.log = Replies.entryName key :: lookups steps := hl ▸ rfl
    rw [course.uncached.2] at asked
    have misses := played.misses going keeps taken missed hl
    exact .failed key keyed misses f hr executed (hl ▸ course.uncached.1) asked
  | @kept now runs key keyed answer missed steps reply course stored =>
    let front := told .now now :: told (.cacheGet t.ctx (Replies.entryName key)) answer :: steps
    have unkept : keepings front = [] := course.uncached.1
    have asked : lookups front = Replies.entryName key :: lookups steps := rfl
    rw [course.uncached.2] at asked
    -- the steps of the execution lie between the lookup and the write of the reply
    have within : ∀ x ∈ steps, x ∈ t.log := by
      intro x hx
      rw [hl]
      exact List.mem_cons_of_mem _ (List.mem_cons_of_mem _ (List.mem_append_left _ hx))
    obtain ⟨answer', mem⟩ := course.asks
    have misses := played.misses going keeps taken missed hl
    have acknowledged := played.taken going keeps taken unkept hl
    rw [acknowledged] at hl
    refine .kept key reply misses ⟨⟨answer', within _ mem⟩, keyed, hr, ?_, ?_⟩
    · exact played.legible dated within course
    · exact ⟨front, unkept, asked, hl⟩

/-- A reply that is repeated has not gone through the steps. -/
theorem Repeats.not_executed {reply : Reply} (h : t.Repeats key reply) : ¬ t.Executed := by
  obtain ⟨-, now, text, asked⟩ := h
  rintro ⟨answer, mem⟩
  rw [asked] at mem
  rcases List.mem_cons.1 mem with h | mem
  · cases h
  · cases List.mem_singleton.1 mem

/-- A turn that finds no reply goes through the steps. -/
theorem Outcome.executed (h : Outcome p line t)
    (missed : ∀ key, t.request.key? = some key → t.Misses line key) : t.Executed := by
  cases h with
  | keyless bare executed => exact executed
  | repeated key keyed e reply there early legible repeats =>
    rw [missed key keyed e there early] at legible
    cases legible
  | failed key keyed missed f result executed => exact executed
  | kept key reply missed keeps => exact keeps.executed

/-- A turn that finds a reply gives it. -/
theorem Outcome.repeats (h : Outcome p line t) (keyed : t.request.key? = some key) {e : Entry}
    {reply : Reply} (there : entry line.time t.past (Replies.entryName key) = some e)
    (early : t.lookedUp line < e.gone) (legible : Replies.read? e.text = some reply) :
    t.Repeats key reply := by
  -- whichever way it went, a turn that finds a legible entry cannot have missed it
  have found (missed : t.Misses line key) : t.Repeats key reply := by
    rw [missed e there early] at legible
    cases legible
  cases h with
  | keyless bare =>
    rw [bare] at keyed
    cases keyed
  | repeated key' keyed' e' reply' there' early' legible' repeats =>
    obtain rfl : key' = key := Option.some.inj (keyed'.symm.trans keyed)
    obtain rfl : e' = e := Option.some.inj (there'.symm.trans there)
    obtain rfl : reply' = reply := Option.some.inj (legible'.symm.trans legible)
    exact repeats
  | failed key' keyed' missed =>
    obtain rfl : key' = key := Option.some.inj (keyed'.symm.trans keyed)
    exact found missed
  | kept key' reply' missed keeps =>
    obtain rfl : key' = key := Option.some.inj (keeps.keyed.symm.trans keyed)
    exact found missed

/-- A turn keeps nothing, or one reply. -/
theorem Outcome.keeps (h : Outcome p line t) :
    keepings t.log = [] ∨ ∃ key reply, t.Misses line key ∧ t.Keeps p key reply := by
  cases h with
  | keyless bare executed unkept => exact .inl unkept
  | repeated key keyed e reply there early legible repeats =>
    obtain ⟨-, now, text, asked⟩ := repeats
    exact .inl (asked ▸ rfl)
  | failed key keyed missed f result executed unkept => exact .inl unkept
  | kept key reply missed keeps => exact .inr ⟨key, reply, missed, keeps⟩

/-- A reply that the steps come to for a key is kept. -/
theorem Outcome.keeps_reply (h : Outcome p line t) {reply : Reply} (executed : t.Executed)
    (keyed : t.request.key? = some key) (result : t.result = .ok reply) : t.Keeps p key reply := by
  cases h with
  | keyless bare =>
    rw [bare] at keyed
    cases keyed
  | repeated key' keyed' e reply' there early legible repeats =>
    exact absurd executed repeats.not_executed
  | failed key' keyed' missed f failed =>
    rw [failed] at result
    cases result
  | kept key' reply' missed keeps =>
    obtain rfl : key' = key := Option.some.inj (keeps.keyed.symm.trans keyed)
    obtain rfl : reply' = reply := Except.ok.inj (keeps.result.symm.trans result)
    exact keeps

/-- A failure says that no reply was found, and nothing is kept of it. -/
theorem Outcome.of_error (h : Outcome p line t) {f : Failure} (result : t.result = .error f) :
    keepings t.log = [] ∧ ∀ key, t.request.key? = some key → t.Misses line key := by
  cases h with
  | keyless bare executed unkept =>
    refine ⟨unkept, fun key keyed => ?_⟩
    rw [bare] at keyed
    cases keyed
  | repeated key keyed e reply there early legible repeats =>
    rw [repeats.1] at result
    cases result
  | failed key keyed missed f' result' executed unkept =>
    refine ⟨unkept, fun key' keyed' => ?_⟩
    obtain rfl : key = key' := Option.some.inj (keyed.symm.trans keyed')
    exact missed
  | kept key reply missed keeps =>
    rw [keeps.result] at result
    cases result

/-- What a turn asks the cache that keeps its reply. -/
theorem Keeps.asks {reply : Reply} (h : t.Keeps p key reply) :
    lookups t.log = [Replies.entryName key] ∧
      keepings t.log = [(Replies.entryName key, Reply.codec.text reply, p.replyTtl)] := by
  obtain ⟨before, unkept, asked, log⟩ := h.last
  rw [lookups] at asked
  rw [keepings] at unkept
  rw [log, lookups, keepings, List.filterMap_append, List.filterMap_append, asked, unkept]
  exact ⟨rfl, rfl⟩

/-- A turn asks for no entry but the one of its own key, and keeps no other. -/
theorem Outcome.own (h : Outcome p line t) {name : String}
    (mem : name ∈ lookups t.log ++ (keepings t.log).map (·.1)) :
    ∃ key, t.request.key? = some key ∧ name = Replies.entryName key := by
  cases h with
  | keyless bare executed unkept unasked =>
    rw [unkept, unasked] at mem
    cases mem
  | repeated key keyed e reply there early legible repeats =>
    obtain ⟨-, now, text, asked⟩ := repeats
    rw [asked] at mem
    exact ⟨key, keyed, List.mem_singleton.1 mem⟩
  | failed key keyed missed f result executed unkept asked =>
    rw [unkept, asked] at mem
    exact ⟨key, keyed, List.mem_singleton.1 mem⟩
  | kept key reply missed keeps =>
    rw [keeps.asks.1, keeps.asks.2] at mem
    rcases List.mem_cons.1 mem with rfl | mem
    · exact ⟨key, keeps.keyed, rfl⟩
    · exact ⟨key, keeps.keyed, List.mem_singleton.1 mem⟩

/-! ### What the cache holds after a turn

A turn changes the entry of its own key or none at all.
-/

theorem Keeps.entry_eq {reply : Reply} (h : t.Keeps p key reply) :
    entry line.time (t.past ++ t.log) (Replies.entryName key) =
      some ⟨Reply.codec.text reply, t.gone p line⟩ := by
  obtain ⟨before, -, -, asked⟩ := h.last
  have last : t.concluded line = line.time (t.past ++ before) := by
    rw [concluded, asked, List.dropLast_concat]
  rw [gone, last, asked, entry_append, entryFrom_append]
  exact if_pos rfl

/-- Besides the entry of its own key a turn changes none. -/
theorem Outcome.entry_eq (h : Outcome p line t) (name : String) :
    entry line.time (t.past ++ t.log) name = entry line.time t.past name ∨
      ∃ key reply, name = Replies.entryName key ∧ t.Misses line key ∧ t.Keeps p key reply := by
  rcases h.keeps with unkept | ⟨key, reply, missed, keeps⟩
  · left
    refine entry_append_of_others fun k hk => ?_
    rw [unkept] at hk
    cases hk
  · by_cases own : name = Replies.entryName key
    · exact .inr ⟨key, reply, own, missed, keeps⟩
    · left
      refine entry_append_of_others fun k hk => ?_
      rw [keeps.asks.2] at hk
      rw [List.mem_singleton.1 hk]
      exact Ne.symm own

/-- Whatever a turn asks to be kept is taken. -/
theorem Outcome.taken (h : Outcome p line t) (taken : ∀ x ∈ t.past, x.Taken) :
    ∀ x ∈ t.past ++ t.log, x.Taken := by
  intro x hx
  rcases List.mem_append.1 hx with hx | hx
  · exact taken x hx
  · rcases h.keeps with unkept | ⟨key, reply, -, keeps⟩
    · exact taken_of_keepings_nil unkept x hx
    · obtain ⟨before, unkept, -, asked⟩ := keeps.last
      rw [asked] at hx
      rcases List.mem_append.1 hx with hx | hx
      · exact taken_of_keepings_nil unkept x hx
      · rw [List.mem_singleton.1 hx]
        rfl

end Turn

/-! ## Turns one after the other

`Follows` carries the outcome of each turn along the history. The laws are inductions over it: an
entry stays until a turn of the same key replaces it.
-/

namespace Pipeline

variable {p : Pipeline} {w : Surroundings Backend} {line : Schedule w} {key : String}
  {past : List (Exchange Backend)} {before between later : List Turn} {t u : Turn}

/-- Turns that follow on a history, each of which is one of the four. -/
inductive Follows (p : Pipeline) (line : Schedule w) : List (Exchange Backend) → List Turn → Prop
  | nil (past : List (Exchange Backend)) : Follows p line past []
  | cons (t : Turn) (outcome : t.Outcome p line) {rest : List Turn}
      (more : Follows p line (t.past ++ t.log) rest) : Follows p line t.past (t :: rest)

/-- Requests that are served one after the other are turns that follow on each other. -/
theorem serve_follows (keeps : KeepsEntries line)
    (dated : ∀ past, (w past .stamp : Stamp).time.Datable) (requests : List (Context × Request)) :
    ∀ {past : List (Exchange Backend)}, (∀ x ∈ past, x.Taken) →
      (∀ t ∈ p.serve w requests past, t.Uninterrupted line) →
      Follows p line past (p.serve w requests past) := by
  induction requests with
  | nil => exact fun _ _ => .nil _
  | cons r rest ih =>
    intro past taken going
    obtain ⟨ctx, request⟩ := r
    let run := (p.process ctx request).play w past
    let t : Turn := ⟨past, ctx, request, run.1, run.2⟩
    have played : t.Played p w := rfl
    have outcome : t.Outcome p line :=
      played.outcome (going t List.mem_cons_self) keeps dated taken
    exact .cons t outcome
      (ih (outcome.taken taken) fun u hu => going u (List.mem_cons_of_mem _ hu))

/-- What follows on a turn, and what the turn follows on. -/
theorem Follows.split (h : Follows p line past (before ++ t :: later)) :
    (∃ more, t.past = past ++ more) ∧ t.Outcome p line ∧
      Follows p line (t.past ++ t.log) later := by
  induction before generalizing past with
  | nil =>
    cases h with
    | cons _ outcome more => exact ⟨⟨[], (List.append_nil _).symm⟩, outcome, more⟩
  | cons v before ih =>
    cases h with
    | cons _ _ more =>
      obtain ⟨⟨between, hp⟩, rest⟩ := ih more
      exact ⟨⟨v.log ++ between, by rw [hp, List.append_assoc]⟩, rest⟩

/-- Later turns look for their entries later. -/
theorem Follows.lookedUp_le (h : Follows p line past (t :: (between ++ u :: later))) :
    t.lookedUp line ≤ u.lookedUp line := by
  cases h with
  | cons _ _ more =>
    obtain ⟨⟨rest, hp⟩, -⟩ := more.split
    have split : u.past ++ u.log.take 1 =
        (t.past ++ t.log.take 1) ++ (t.log.drop 1 ++ rest ++ u.log.take 1) := by
      rw [hp, List.append_assoc, List.append_assoc, List.append_assoc, List.append_assoc,
        ← List.append_assoc (t.log.take 1), List.take_append_drop]
    rw [Turn.lookedUp, Turn.lookedUp, split]
    exact line.mono _ _

/-- As long as an entry is there, its reply is given for its key, and it stays as it is. -/
theorem Follows.repeats (h : Follows p line past (between ++ u :: later)) {e : Entry}
    {reply : Reply} (there : entry line.time past (Replies.entryName key) = some e)
    (legible : Replies.read? e.text = some reply) (keyed : u.request.key? = some key)
    (early : u.lookedUp line < e.gone) : u.Repeats key reply := by
  induction between generalizing past with
  | nil =>
    cases h with
    | cons _ outcome _ => exact outcome.repeats keyed there early legible
  | cons v between ih =>
    -- if the turn between keeps a reply for the key, it has not found the one that is there
    have earlier := Nat.lt_of_le_of_lt h.lookedUp_le early
    cases h with
    | cons _ outcome more =>
      refine ih more ?_
      rcases outcome.entry_eq (Replies.entryName key) with same | ⟨key', reply', own, missed, -⟩
      · rw [same, there]
      · obtain rfl := Replies.entryName_injective own
        rw [missed e there earlier] at legible
        cases legible

/-- As long as there is no reply to be had for a key, the steps are gone through for it. -/
theorem Follows.executed (h : Follows p line past (between ++ u :: later)) {since : Nat}
    (barren : ∀ e, entry line.time past (Replies.entryName key) = some e → since < e.gone →
      Replies.read? e.text = none)
    (le : since ≤ u.lookedUp line) (keyed : u.request.key? = some key)
    (others : ∀ v ∈ between, v.request.key? ≠ some key) : u.Executed := by
  induction between generalizing past with
  | nil =>
    cases h with
    | cons _ outcome _ =>
      refine outcome.executed fun key' keyed' => ?_
      obtain rfl : key' = key := Option.some.inj (keyed'.symm.trans keyed)
      exact fun e there early => barren e there (Nat.lt_of_le_of_lt le early)
  | cons v between ih =>
    cases h with
    | cons _ outcome more =>
      have apart := others v List.mem_cons_self
      refine ih more ?_ fun x hx => others x (List.mem_cons_of_mem _ hx)
      -- only a turn with the same key could have replaced the entry, and none of these has it
      rcases outcome.entry_eq (Replies.entryName key) with same | ⟨key', reply', own, -, keeps⟩
      · rw [same]
        exact barren
      · obtain rfl := Replies.entryName_injective own
        exact absurd keeps.keyed apart

/-- An entry was there from the beginning, or comes from a turn for its key. -/
theorem Follows.origin (h : Follows p line past (before ++ u :: later)) {e : Entry}
    (there : entry line.time u.past (Replies.entryName key) = some e) :
    entry line.time past (Replies.entryName key) = some e ∨
      ∃ t ∈ before, ∃ reply, t.Keeps p key reply ∧ e = ⟨Reply.codec.text reply, t.gone p line⟩ := by
  induction before generalizing past with
  | nil =>
    cases h with
    | cons _ _ _ => exact .inl there
  | cons v before ih =>
    cases h with
    | cons _ outcome more =>
      -- what is there after the first turn was there before it, or the turn has kept it
      rcases ih more with earlier | ⟨t, mem, rest⟩
      · rcases outcome.entry_eq (Replies.entryName key) with same | ⟨key', reply, own, -, keeps⟩
        · rw [same] at earlier
          exact .inl earlier
        · obtain rfl := Replies.entryName_injective own
          rw [keeps.entry_eq] at earlier
          exact .inr ⟨v, List.mem_cons_self, reply, keeps, (Option.some.inj earlier).symm⟩
      · exact .inr ⟨t, List.mem_cons_of_mem _ mem, rest⟩

/-- What repeated requests are answered, along turns that follow on a history. -/
structure Replays (p : Pipeline) (line : Schedule w) (past : List (Exchange Backend))
    (turns : List Turn) : Prop where
  /-- A reply that the steps come to for a key is kept, and that is the turn's last act. -/
  kept : ∀ t ∈ turns, ∀ key reply, t.Executed → t.request.key? = some key → t.result = .ok reply →
    ∃ front, keepings front = [] ∧
      t.log = front ++ [told (p.keeping t.ctx key reply) (.ok (.ok ()))]
  /-- Until it is gone it is the answer to every request with that key. Nothing else is asked for
  such a request than the clock and the cache, and the reply is not kept for longer. -/
  repeated : ∀ {before between later : List Turn} {t u : Turn} {key : String} {reply : Reply},
    turns = before ++ t :: (between ++ u :: later) → t.Executed →
      t.request.key? = some key → t.result = .ok reply → u.request.key? = some key →
      u.lookedUp line < t.gone p line → u.Repeats key reply
  /-- Nothing is kept of a failure. -/
  unkept : ∀ t ∈ turns, ∀ f, t.result = .error f → keepings t.log = []
  /-- For the next request with the key of one that failed, the steps are gone through again. -/
  retried : ∀ {before between later : List Turn} {t u : Turn} {key : String} {f : Failure},
    turns = before ++ t :: (between ++ u :: later) → t.result = .error f →
      t.request.key? = some key → u.request.key? = some key →
      (∀ v ∈ between, v.request.key? ≠ some key) → u.Executed
  /-- Without a key the steps are gone through, and the cache is not asked. -/
  keyless : ∀ t ∈ turns, t.request.key? = none →
    t.Executed ∧ lookups t.log = [] ∧ keepings t.log = []
  /-- Only the entry of a request's own key is asked for or kept. -/
  own : ∀ t ∈ turns, ∀ name ∈ lookups t.log ++ (keepings t.log).map (·.1),
    ∃ key, t.request.key? = some key ∧ name = Replies.entryName key
  /-- When the steps are not gone through, the reply is one that they came to for the same key and
  that is not gone, or stood in the entry of that key from the beginning. -/
  origin : ∀ {before later : List Turn} {u : Turn}, turns = before ++ u :: later → ¬ u.Executed →
    ∃ key reply, u.request.key? = some key ∧ u.Repeats key reply ∧
      ((∃ t ∈ before, t.Executed ∧ t.request.key? = some key ∧ t.result = .ok reply ∧
          u.lookedUp line < t.gone p line) ∨
        ∃ e, entry line.time past (Replies.entryName key) = some e ∧
          u.lookedUp line < e.gone ∧ Replies.read? e.text = some reply)

theorem Follows.outcome (h : Follows p line past later) (mem : t ∈ later) : t.Outcome p line := by
  obtain ⟨before, rest, rfl⟩ := List.append_of_mem mem
  exact h.split.2.1

/-- What repeated requests are answered is shown along the turns. -/
theorem Follows.replays {turns : List Turn} (h : Follows p line past turns) :
    Replays p line past turns := by
  constructor
  case kept =>
    intro t mem key reply executed keyed result
    obtain ⟨front, unkept, -, log⟩ := ((h.outcome mem).keeps_reply executed keyed result).last
    exact ⟨front, unkept, log⟩
  case repeated =>
    rintro before between later t u key reply rfl executed keyed result keyed' early
    obtain ⟨-, outcome, more⟩ := h.split
    have keeps := outcome.keeps_reply executed keyed result
    -- the reply stored by `t` is still the entry when `u` looks it up
    exact more.repeats keeps.entry_eq keeps.legible keyed' early
  case unkept =>
    exact fun t mem f result => ((h.outcome mem).of_error result).1
  case retried =>
    rintro before between later t u key f rfl result keyed keyed' others
    obtain ⟨-, outcome, more⟩ := h.split
    obtain ⟨unkept, missed⟩ := outcome.of_error result
    have same : entry line.time (t.past ++ t.log) (Replies.entryName key) =
        entry line.time t.past (Replies.entryName key) :=
      entry_append_of_others fun k hk => absurd (unkept ▸ hk) List.not_mem_nil
    have later := (Follows.cons t outcome more).lookedUp_le
    -- a failed turn stores nothing, so an entry found afterwards was there before it and was not
    -- legible
    refine more.executed (fun e there early => ?_) later keyed' others
    rw [same] at there
    exact missed key keyed e there early
  case keyless =>
    intro t mem bare
    have other {key : String} (keyed : t.request.key? = some key) : False := by
      rw [bare] at keyed
      cases keyed
    cases h.outcome mem with
    | keyless _ executed unkept unasked => exact ⟨executed, unasked, unkept⟩
    | repeated key keyed => exact (other keyed).elim
    | failed key keyed => exact (other keyed).elim
    | kept key reply missed keeps => exact (other keeps.keyed).elim
  case own =>
    exact fun t mem name hn => (h.outcome mem).own hn
  -- by `origin` an entry is either initial or some earlier turn's own
  case origin =>
    rintro before later u rfl unexecuted
    obtain ⟨-, outcome, -⟩ := h.split
    cases outcome with
    | keyless _ executed => exact absurd executed unexecuted
    | failed _ _ _ _ _ executed => exact absurd executed unexecuted
    | kept _ _ _ keeps => exact absurd keeps.executed unexecuted
    | repeated key keyed e reply there early legible repeats =>
      refine ⟨key, reply, keyed, repeats, ?_⟩
      rcases h.origin there with initial | ⟨t, mem, reply', keeps, rfl⟩
      · exact .inr ⟨e, initial, early, legible⟩
      · obtain rfl : reply' = reply := Option.some.inj (keeps.legible.symm.trans legible)
        exact .inl ⟨t, mem, keeps.executed, keeps.keyed, keeps.result, early⟩

/-- **Requests that are repeated are answered as they were before**, in any history of requests that
are not interrupted, with a cache that makes no mistakes, whatever it holds at the beginning and
whatever the other dependencies do. -/
theorem serve_replays (p : Pipeline) (w : Surroundings Backend) (line : Schedule w)
    (keeps : KeepsEntries line) (dated : ∀ past, (w past .stamp : Stamp).time.Datable)
    (requests : List (Context × Request)) (past : List (Exchange Backend))
    (taken : ∀ x ∈ past, x.Taken)
    (going : ∀ t ∈ p.serve w requests past, t.Uninterrupted line) :
    Replays p line past (p.serve w requests past) :=
  (serve_follows keeps dated requests taken going).replays

/-- Every question takes a millisecond, every dependency does what it should, and the cache keeps
entries. -/
def keepingCache : Surroundings Backend := fun past op =>
  match op with
  | .now => past.length
  | .publish _ _ _ _ => .ok ()
  | .cacheGet _ name => .ok (.ok (held List.length past name))
  | op => deafBroker past op

def keepingCache.schedule : Schedule keepingCache where
  time := List.length
  mono := length_le_append
  shown _ := rfl
  answered := List.length
  dealt_le past x := length_le_append past [x]
  answered_le _ _ := Nat.le_refl _

theorem keepingCache.keeps : KeepsEntries keepingCache.schedule where
  answers _ _ _ _ := .inl rfl
  takes _ _ _ _ _ _ := .inl rfl

/-- The same request twice: the second time it is answered by the reply to the first. -/
theorem serve_replays_twice :
    let p : Pipeline := { replyTtl := 60000 }
    let request : Request := { userId := "u1", idempotencyKey := some "k1" }
    let turns := p.serve keepingCache [(.background, request), (.background, request)] []
    Replays p keepingCache.schedule [] turns ∧
      ∃ t u reply, turns = [t, u] ∧ t.Executed ∧ t.result = .ok reply ∧ u.Repeats "k1" reply := by
  intro p request turns
  have dated : (default : DateTime).Datable := by
    show DateTime.yearInRange _ = true
    decide
  have law : Replays p keepingCache.schedule [] turns := by
    refine serve_replays p keepingCache keepingCache.schedule keepingCache.keeps (fun _ => dated)
      [(.background, request), (.background, request)] []
      (fun _ hx => absurd hx List.not_mem_nil) ?_
    intro t mem
    rcases List.mem_cons.1 mem with rfl | mem
    · rfl
    · rw [List.mem_singleton.1 mem]
      rfl
  have executed : (turns[0]).Executed :=
    ⟨_, List.mem_cons_of_mem _ (List.mem_cons_of_mem _ List.mem_cons_self)⟩
  have split : turns = [] ++ turns[0] :: ([] ++ turns[1] :: []) := rfl
  refine ⟨law, turns[0], turns[1], _, rfl, executed, rfl, ?_⟩
  exact law.repeated split executed rfl rfl rfl (by decide)

end Pipeline

end Courier
