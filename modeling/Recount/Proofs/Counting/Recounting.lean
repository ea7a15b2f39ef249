import Recount.Proofs.Concurrent.Founded
import Recount.Proofs.Concurrent.History

/-!
# How a recount proceeds

A recount looks at the count, then at the items of its version, draws an identifier for
each item that is to follow one of them, and makes its transition last of all. So what it
does and returns can be read off its history at any moment.
-/

namespace Recount.Concurrent

open Counting

variable {tenant count actor : Id}

/-- Draws identifiers and goes on with them. -/
def drawIds {β : Type} : Nat → (List Id → Program Request Request.Answer β) →
    Program Request Request.Answer β
  | 0, next => next []
  | n + 1, next => .ask .freshId fun id => drawIds n fun ids => next (id :: ids)

theorem drawIds_bind {α β : Type} {f : α → Program Request Request.Answer β} {n : Nat}
    {next : List Id → Program Request Request.Answer α} :
    (drawIds n next).bind f = drawIds n fun ids => (next ids).bind f := by
  induction n generalizing next with
  | zero => rfl
  | succ n ih => exact congrArg (Program.ask _) (funext fun id => ih)

theorem nextItems_run {version : Int} {time : Time} {items : List Item} :
    (nextItems version time items).run =
      drawIds items.length fun ids => .done (.ok (Item.nextAll version time items ids)) := by
  induction items with
  | nil => rfl
  | cons i items ih =>
    refine congrArg (Program.ask _) (funext fun id => ?_)
    change ((nextItems version time items).run.bind _) = _
    rw [ih, drawIds_bind]
    rfl

/-- The transition to the next version of a count that was seen, with an item for each one that was
listed. -/
def recountOf (seen : Count) (actor : Id) (items : List Item) (time : Time) (ids : List Id) :
    Transition where
  change := { StatusChange.ofCount seen recountable .active actor with opensVersion := true }
  newItems := Item.nextAll (seen.currentVersion + 1) time items ids

/-- What is returned when the transition was made. -/
def outcomeOf (items : List Item) (t : Transition) (updated : Count) : RecountOutcome where
  newVersion := some updated.currentVersion
  pending := items.countP (·.hasVariance)
  carried := t.newItems.length - items.countP (·.hasVariance)
  count := updated

/-- Makes the transition. -/
def enterRecount (tenant count actor : Id) (seen : Count) (items : List Item) (time : Time)
    (ids : List Id) : Program Request Request.Answer (Except Error RecountOutcome) :=
  .ask (.store (.counts (.change tenant count (recountOf seen actor items time ids)))) fun
    | .error e => .done (.error e)
    | .ok updated => .done (.ok (outcomeOf items (recountOf seen actor items time ids) updated))

/-- Lists the items of the version, and goes on if one of them differs. -/
def listRecounted (tenant count actor : Id) (seen : Count) :
    Program Request Request.Answer (Except Error RecountOutcome) :=
  .ask (.store (.counts (.listItems count (some seen.currentVersion)))) fun
    | .error e => .done (.error e)
    | .ok items =>
      if items.countP (·.hasVariance) = 0 then .done (.ok ⟨none, 0, 0, seen⟩)
      else .ask .now fun time =>
        drawIds items.length (enterRecount tenant count actor seen items time)

/-- A recount, request by request. -/
def recount (tenant count actor : Id) :
    Program Request Request.Answer (Except Error RecountOutcome) :=
  .ask (.store (.counts (.get tenant count))) fun
    | .error e => .done (.error e)
    | .ok none => .done (.error (.missing (.count count)))
    | .ok (some seen) =>
      if recountable.contains seen.status then listRecounted tenant count actor seen
      else .done (.error (.wrongState (Status.alternatives recountable) seen.status.name))

theorem openRecount_run : (openRecount tenant count actor).run = recount tenant count actor := by
  refine congrArg (Program.ask _) (funext fun answer => ?_)
  rcases answer with e | _ | seen
  · rfl
  · rfl
  change (if !recountable.contains seen.status then _ else _ : Action RecountOutcome).run = _
  cases hstatus : recountable.contains seen.status with
  | false =>
    dsimp only
    rw [hstatus]
    rfl
  | true =>
    dsimp only
    rw [hstatus]
    refine congrArg (Program.ask _) (funext fun answer => ?_)
    rcases answer with e | items
    · rfl
    change (if items.countP (·.hasVariance) = 0 then _ else _ : Action RecountOutcome).run = _
    dsimp only
    split
    · rfl
    · refine congrArg (Program.ask _) (funext fun time => ?_)
      change (nextItems (seen.currentVersion + 1) time items).run.bind _ = _
      rw [nextItems_run, drawIds_bind]
      refine congrArg (drawIds _) (funext fun ids => congrArg (Program.ask _) (funext fun answer => ?_))
      cases answer <;> rfl

/-- What a recount has asked when it saw a count. -/
def seenPast (tenant count : Id) (seen : Count) : List Exchange :=
  [⟨.store (.counts (.get tenant count)), .ok (some seen)⟩]

/-- What a recount has asked when it was listed the items of the version. -/
def listedPast (tenant count : Id) (seen : Count) (items : List Item) : List Exchange :=
  ⟨.store (.counts (.listItems count (some seen.currentVersion))), .ok items⟩ ::
    seenPast tenant count seen

/-- What a recount has asked when it has drawn some identifiers. -/
def drawnPast (tenant count : Id) (seen : Count) (items : List Item) (time : Time)
    (ids : List Id) : List Exchange :=
  (ids.map fun id => (⟨.freshId, id⟩ : Exchange)).reverse ++
    ⟨.now, time⟩ :: listedPast tenant count seen items

/-- How far a recount has come, by its history. -/
inductive Recounting (tenant count actor : Id) :
    List Exchange → Program Request Request.Answer (Except Error RecountOutcome) → Prop
  | begun : Recounting tenant count actor [] (recount tenant count actor)
  | notSeen {answer} (error : Error)
      (hanswer : ∀ seen, answer = .ok (some seen) → seen.status ∉ recountable) :
      Recounting tenant count actor [⟨.store (.counts (.get tenant count)), answer⟩]
        (.done (.error error))
  | seen {seen} (hstatus : seen.status ∈ recountable) :
      Recounting tenant count actor (seenPast tenant count seen)
        (listRecounted tenant count actor seen)
  | notListed {seen} (error : Error) (hstatus : seen.status ∈ recountable) :
      Recounting tenant count actor
        (⟨.store (.counts (.listItems count (some seen.currentVersion))), .error error⟩ ::
          seenPast tenant count seen) (.done (.error error))
  | same {seen items} (hstatus : seen.status ∈ recountable)
      (hsame : items.countP (·.hasVariance) = 0) :
      Recounting tenant count actor (listedPast tenant count seen items)
        (.done (.ok ⟨none, 0, 0, seen⟩))
  | listed {seen items} (hstatus : seen.status ∈ recountable)
      (hdiffers : items.countP (·.hasVariance) ≠ 0) :
      Recounting tenant count actor (listedPast tenant count seen items)
        (.ask .now fun time => drawIds items.length (enterRecount tenant count actor seen items time))
  | drawing {seen items time ids n} (hstatus : seen.status ∈ recountable)
      (hdiffers : items.countP (·.hasVariance) ≠ 0) (hlength : ids.length + n = items.length) :
      Recounting tenant count actor (drawnPast tenant count seen items time ids)
        (drawIds n fun more => enterRecount tenant count actor seen items time (ids ++ more))
  | refused {seen items time ids} (error : Error) (hstatus : seen.status ∈ recountable)
      (hdiffers : items.countP (·.hasVariance) ≠ 0) :
      Recounting tenant count actor
        (⟨.store (.counts (.change tenant count (recountOf seen actor items time ids))),
          .error error⟩ :: drawnPast tenant count seen items time ids) (.done (.error error))
  | opened {seen items time ids updated} (hstatus : seen.status ∈ recountable)
      (hdiffers : items.countP (·.hasVariance) ≠ 0) (hlength : ids.length = items.length) :
      Recounting tenant count actor
        (⟨.store (.counts (.change tenant count (recountOf seen actor items time ids))),
          .ok updated⟩ :: drawnPast tenant count seen items time ids)
        (.done (.ok (outcomeOf items (recountOf seen actor items time ids) updated)))

/-- With each answer a recount comes one step further. -/
theorem Recounting.answered {past : List Exchange} {q : Request} {next} {r}
    (h : Recounting tenant count actor past r) (hr : r = .ask q next) (answer : q.Answer) :
    Recounting tenant count actor (⟨q, answer⟩ :: past) (next answer) := by
  cases h with
  | begun =>
    obtain ⟨rfl, hnext⟩ := Program.ask.inj hr
    cases hnext
    rcases answer with e | _ | seen
    · exact .notSeen e fun seen hseen => by cases hseen
    · exact .notSeen _ fun seen hseen => by cases hseen
    · dsimp only
      split
      · next hstatus => exact .seen (by simpa using hstatus)
      · next hstatus =>
        refine .notSeen _ fun seen' hseen => ?_
        cases hseen
        simpa using hstatus
  | seen hstatus =>
    obtain ⟨rfl, hnext⟩ := Program.ask.inj hr
    cases hnext
    rcases answer with e | items
    · exact .notListed e hstatus
    · dsimp only
      split
      · next hsame => exact .same hstatus hsame
      · next hdiffers => exact .listed hstatus hdiffers
  | listed hstatus hdiffers =>
    obtain ⟨rfl, hnext⟩ := Program.ask.inj hr
    cases hnext
    exact @Recounting.drawing _ _ _ _ _ answer [] _ hstatus hdiffers (Nat.zero_add _)
  | @drawing seen items time ids n hstatus hdiffers hlength =>
    cases n with
    | zero =>
      change enterRecount tenant count actor seen items time (ids ++ []) = _ at hr
      rw [List.append_nil] at hr
      obtain ⟨rfl, hnext⟩ := Program.ask.inj hr
      cases hnext
      rcases answer with e | updated
      · exact .refused e hstatus hdiffers
      · exact .opened hstatus hdiffers hlength
    | succ n =>
      obtain ⟨rfl, hnext⟩ := Program.ask.inj hr
      cases hnext
      have hdrawn : Recounting tenant count actor
          (drawnPast tenant count seen items time (ids ++ [answer]))
          (drawIds n fun more => enterRecount tenant count actor seen items time
            (ids ++ [answer] ++ more)) := by
        refine .drawing hstatus hdiffers ?_
        rw [List.length_append, List.length_singleton]
        omega
      simpa [drawnPast, List.append_assoc] using hdrawn
  | _ => cases hr

/-- A recount only looks, or is refused its transition, or it has opened a version and returns it. -/
theorem Recounting.answer_cases {past : List Exchange} {q : Request} {next} {r}
    (h : Recounting tenant count actor past r) (hr : r = .ask q next) (answer : q.Answer) :
    IsQuery q ∨ (∃ call error, (⟨q, answer⟩ : Exchange) = ⟨.store call, .error error⟩) ∨
      ∃ outcome version, next answer = .done (.ok outcome) ∧ outcome.newVersion = some version := by
  cases h with
  | begun =>
    obtain ⟨rfl, -⟩ := Program.ask.inj hr
    exact .inl trivial
  | seen =>
    obtain ⟨rfl, -⟩ := Program.ask.inj hr
    exact .inl trivial
  | listed =>
    obtain ⟨rfl, -⟩ := Program.ask.inj hr
    exact .inl trivial
  | @drawing seen items time ids n =>
    cases n with
    | zero =>
      obtain ⟨rfl, hnext⟩ := Program.ask.inj hr
      cases hnext
      rcases answer with e | updated
      · exact .inr (.inl ⟨_, e, rfl⟩)
      · exact .inr (.inr ⟨_, _, rfl, rfl⟩)
    | succ n =>
      obtain ⟨rfl, -⟩ := Program.ask.inj hr
      exact .inl trivial
  | _ => cases hr

section Done

variable {c : Count} {seen : Count}

theorem seen_of_mem_seenPast
    (h : (⟨.store (.counts (.get tenant count)), .ok (some c)⟩ : Exchange) ∈
      seenPast tenant count seen) : c = seen := by
  cases List.mem_singleton.mp h
  rfl

theorem seen_of_mem_listedPast {items : List Item}
    (h : (⟨.store (.counts (.get tenant count)), .ok (some c)⟩ : Exchange) ∈
      listedPast tenant count seen items) : c = seen := by
  rcases List.mem_cons.mp h with heq | h
  · injection heq with heq
    cases heq
  · exact seen_of_mem_seenPast h

theorem seen_of_mem_drawnPast {items : List Item} {time : Time} {ids : List Id}
    (h : (⟨.store (.counts (.get tenant count)), .ok (some c)⟩ : Exchange) ∈
      drawnPast tenant count seen items time ids) : c = seen := by
  rcases List.mem_append.mp h with h | h
  · obtain ⟨id, -, heq⟩ := List.mem_map.mp (List.mem_reverse.mp h)
    injection heq with heq
    cases heq
  · rcases List.mem_cons.mp h with heq | h
    · injection heq with heq
      cases heq
    · exact seen_of_mem_listedPast h

/-- A recount that saw a count lists its items next, or it has done so and found that one differs. -/
theorem Recounting.ask_cases {past : List Exchange} {r} {q : Request} {next}
    (h : Recounting tenant count actor past r) (hr : r = .ask q next)
    (hseen : ⟨.store (.counts (.get tenant count)), .ok (some c)⟩ ∈ past) :
    r = listRecounted tenant count actor c ∨
      ∃ items, ⟨.store (.counts (.listItems count (some c.currentVersion))), .ok items⟩ ∈ past ∧
        items.countP (·.hasVariance) ≠ 0 := by
  cases h with
  | begun => exact absurd hseen List.not_mem_nil
  | seen =>
    obtain rfl := seen_of_mem_seenPast hseen
    exact .inl rfl
  | listed hstatus hdiffers =>
    obtain rfl := seen_of_mem_listedPast hseen
    exact .inr ⟨_, List.mem_cons_self, hdiffers⟩
  | drawing hstatus hdiffers =>
    obtain rfl := seen_of_mem_drawnPast hseen
    refine .inr ⟨_, ?_, hdiffers⟩
    exact List.mem_append_right _ (List.mem_cons_of_mem _ List.mem_cons_self)
  | _ => cases hr

/-- A recount that saw a settled count ends when the items are not listed, when none of them
differs, when its transition is refused, or when it was made. -/
theorem Recounting.done_cases {past : List Exchange} {r} {result}
    (h : Recounting tenant count actor past r) (hr : r = .done result)
    (hseen : ⟨.store (.counts (.get tenant count)), .ok (some c)⟩ ∈ past)
    (hstatus : c.status ∈ recountable) :
    (∃ error, result = .error error ∧
        ⟨.store (.counts (.listItems count (some c.currentVersion))), .error error⟩ ∈ past) ∨
      ∃ items, ⟨.store (.counts (.listItems count (some c.currentVersion))), .ok items⟩ ∈ past ∧
        ((items.countP (·.hasVariance) = 0 ∧ result = .ok ⟨none, 0, 0, c⟩) ∨
          items.countP (·.hasVariance) ≠ 0 ∧
            ((∃ error, result = .error error) ∨
              ∃ time ids updated, ids.length = items.length ∧
                result = .ok (outcomeOf items (recountOf c actor items time ids) updated) ∧
                past = ⟨.store (.counts (.change tenant count (recountOf c actor items time ids))),
                  .ok updated⟩ :: drawnPast tenant count c items time ids)) := by
  have hlisted : ∀ {items time ids}, (⟨.store (.counts (.listItems count (some c.currentVersion))),
      .ok items⟩ : Exchange) ∈ drawnPast tenant count c items time ids := fun {items time ids} =>
    List.mem_append_right _ (List.mem_cons_of_mem _ List.mem_cons_self)
  cases h with
  | begun => cases hr
  | @notSeen answer error hanswer =>
    cases List.mem_singleton.mp hseen
    exact absurd hstatus (hanswer c rfl)
  | @notListed seen error =>
    cases hr
    rcases List.mem_cons.mp hseen with heq | hseen
    · injection heq with heq
      cases heq
    · obtain rfl := seen_of_mem_seenPast hseen
      exact .inl ⟨error, rfl, List.mem_cons_self⟩
  | @same seen items _ hsame =>
    cases hr
    obtain rfl := seen_of_mem_listedPast hseen
    exact .inr ⟨items, List.mem_cons_self, .inl ⟨hsame, rfl⟩⟩
  | @refused seen items time ids error _ hdiffers =>
    cases hr
    rcases List.mem_cons.mp hseen with heq | hseen
    · injection heq with heq
      cases heq
    · obtain rfl := seen_of_mem_drawnPast hseen
      exact .inr ⟨items, List.mem_cons_of_mem _ hlisted, .inr ⟨hdiffers, .inl ⟨error, rfl⟩⟩⟩
  | @opened seen items time ids updated _ hdiffers hlength =>
    cases hr
    rcases List.mem_cons.mp hseen with heq | hseen
    · injection heq with heq
      cases heq
    · obtain rfl := seen_of_mem_drawnPast hseen
      exact .inr ⟨items, List.mem_cons_of_mem _ hlisted,
        .inr ⟨hdiffers, .inr ⟨time, ids, updated, hlength, rfl, rfl⟩⟩⟩
  | @drawing seen items time ids n =>
    cases n <;> cases hr
  | seen => cases hr
  | listed => cases hr

end Done

theorem openRecount_reaches {past : List Exchange} {r}
    (h : (openRecount tenant count actor).run.Reaches past r) :
    Recounting tenant count actor past r := by
  rw [openRecount_run] at h
  induction h with
  | start => exact .begun
  | ask hp answer ih => exact ih.answered rfl answer

end Recount.Concurrent
