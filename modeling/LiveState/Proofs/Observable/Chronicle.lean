import LiveState.Proofs.Observable.Course
import LiveState.Proofs.Observable.History
import LiveState.Proofs.Observable.Operations

/-! # Operations and the history of an observable

The operations at a place keep the observable in agreement with its history, and add to a history
only what is well formed: calls and passes come to their ends, unless a budget is used up.
-/

namespace LiveState

open Course History

variable {W σ α κ : Type}

/-- A world that keeps the history of the observable at a place. -/
structure Place.Recorded (p : Place W α κ) (past : W → History α) : Prop extends p.Lawful where
  past_adjust : ∀ f w, past (p.adjust f w) = past w
  past_note : ∀ o w, past (p.note o w) = past w ++ [o]

/-- The course of the observable at a place: it agrees with its history whenever an action may begin,
    and what happens is well formed unless it is cut short. -/
def chronicle (p : Place W α (Listener σ α)) (past : W → History α) (initial : α) : Course W where
  sound w := Ready initial (p.cell w) (past w)
  leads b w w' := b = false → ∃ s, past w' = past w ++ s ∧ Episode initial (past w) s
  refl w _ := ⟨[], by simp, .nil⟩
  trans := by
    intro u v w b b' first second hb
    obtain ⟨hb, hb'⟩ := Bool.or_eq_false_iff.1 hb
    obtain ⟨s, hs, es⟩ := first hb
    obtain ⟨t, ht, et⟩ := second hb'
    exact ⟨s ++ t, by rw [ht, hs, List.append_assoc], es.append (hs ▸ et)⟩

namespace Place

variable {p : Place W α (Listener σ α)} {past : W → History α} {initial : α}

/-- Whatever is well formed leads on from where an action may begin. -/
theorem chronicle_leads {w u : W} {s : History α} (ready : Underway initial (past w))
    (agrees : Agrees initial (p.cell u) (past u)) (hs : past u = past w ++ s)
    (episode : Episode initial (past w) s) :
    (chronicle p past initial).sound u ∧ (chronicle p past initial).leads false w u :=
  ⟨⟨agrees, hs ▸ ready.further episode⟩, fun _ => ⟨s, hs, episode⟩⟩

/-- From `w` both actions do the same and keep the agreement; and unless they are cut short, what
    they add to the history is as `Q` says, and they return.  If they are cut short, it is where a
    step might have begun. -/
structure Adds (p : Place W α (Listener σ α)) (past : W → History α) (initial : α) (w : W)
    (Q : History α → Prop) (m m' : Act W Unit) : Prop where
  same : m'.perform w = m.perform w
  agrees : Agrees initial (p.cell (m.perform w).2) (past (m.perform w).2)
  adds : Act.isExhausted (m.perform w).1 = false →
    (m.perform w).1 = .ok () ∧ ∃ s, past (m.perform w).2 = past w ++ s ∧ Q s
  cut : Act.isExhausted (m.perform w).1 = true → Underway initial (past (m.perform w).2)

namespace Adds

variable {w : W} {Q R : History α → Prop} {m m' k k' : Act W Unit}

theorem bind (h : p.Adds past initial w Q m m')
    (next : ∀ u s, past u = past w ++ s → Q s → Agrees initial (p.cell u) (past u) →
      p.Adds past initial u (fun t => R (s ++ t)) k k') :
    p.Adds past initial w R (do m; k) (do m'; k') := by
  obtain ⟨same, agrees, adds, cut⟩ := h
  rcases ran : m.perform w with ⟨i | _, u⟩ <;> rw [ran] at same agrees adds cut
  · constructor <;> simp only [Act.perform_bind, same, ran]
    · exact agrees
    · intro h
      -- Whatever adds something returns, so that it was not interrupted.
      have never := (adds (by cases i <;> first | rfl | cases h)).1
      cases never
    · exact fun h => cut (by cases i <;> first | rfl | cases h)
  · obtain ⟨-, s, hs, qs⟩ := adds rfl
    obtain ⟨same', agrees', adds', cut'⟩ := next u s hs qs agrees
    constructor <;> simp only [Act.perform_bind, same, ran]
    · exact same'
    · exact agrees'
    · intro h
      obtain ⟨done, t, ht, rt⟩ := adds' h
      exact ⟨done, s ++ t, by rw [ht, hs, List.append_assoc], rt⟩
    · exact cut'

theorem after {u : W} {s : History α} (h : p.Adds past initial u Q k k')
    (hm : m.perform w = k.perform u) (hm' : m'.perform w = k'.perform u)
    (hs : past u = past w ++ s) (imp : ∀ t, Q t → R (s ++ t)) : p.Adds past initial w R m m' := by
  obtain ⟨same, agrees, adds, cut⟩ := h
  rw [← hm] at agrees adds cut
  refine ⟨by rw [hm, hm', same], agrees, fun h => ?_, cut⟩
  obtain ⟨done, t, ht, qt⟩ := adds h
  exact ⟨done, s ++ t, by rw [ht, hs, List.append_assoc], imp t qt⟩

theorem carriesFrom (h : p.Adds past initial w Q m m') (ready : Underway initial (past w))
    (imp : ∀ s, Q s → Episode initial (past w) s) :
    (chronicle p past initial).CarriesFrom w m m' := by
  cases ended : Act.isExhausted (m.perform w).1 with
  | true =>
    refine ⟨h.same, ⟨h.agrees, h.cut ended⟩, fun whole => ?_⟩
    rw [ended] at whole
    cases whole
  | false =>
    obtain ⟨-, s, hs, qs⟩ := h.adds ended
    obtain ⟨sound, leads⟩ := chronicle_leads ready h.agrees hs (imp s qs)
    exact ⟨h.same, sound, ended ▸ leads⟩

end Adds

namespace Recorded

theorem neutral_agrees (hp : p.Recorded past) {w : W} (a : Agrees initial (p.cell w) (past w))
    {x : Occurrence α} (hx : IsNeutral x) (silent : ∀ name v, x ≠ .heard name v) :
    Agrees initial (p.cell (p.note x w)) (past (p.note x w)) := by
  rw [hp.cell_note, hp.past_note]
  exact a.neutral hx (a.voiced.note silent)

theorem admits_spend (hp : p.Recorded past) (id i : Nat) :
    (chronicle p past initial).Admits (p.adjust (·.adjustCallback id (·.spend i))) := by
  intro w a
  refine chronicle_leads a.underway ?_ (by rw [hp.past_adjust, List.append_nil]) .nil
  rw [hp.cell_adjust, hp.past_adjust]
  exact a.toAgrees.spend id i

/-- The world right after a call of subscriber `id` has been announced and its script has been heard. -/
def answered (p : Place W α κ) (pass : Option Nat) (id : Nat) (name : String) (v : α) (w : W) : W :=
  p.note (.heard name v) (p.note (.called pass id v) w)

theorem past_answered (hp : p.Recorded past) (pass : Option Nat) (id : Nat) (name : String) (v : α)
    (w : W) : past (answered p pass id name v w) = past w ++ [.called pass id v, .heard name v] := by
  rw [answered, hp.past_note, hp.past_note, ← List.append_cons]

/-- The script that is called is the one that is heard. -/
theorem answered_agrees (hp : p.Recorded past) {w : W} (a : Agrees initial (p.cell w) (past w))
    {id : Nat} {name : String} {rules : List (Rule σ α)}
    (found : (p.cell w).callback? id = some (.script name rules)) (pass : Option Nat) (v : α) :
    Agrees initial (p.cell (answered p pass id name v w)) (past (answered p pass id name v w)) := by
  have called := hp.neutral_agrees a (x := .called pass id v) trivial (by simp)
  rw [hp.cell_note, hp.past_note] at called
  rw [hp.past_answered, answered, hp.cell_note, hp.cell_note, List.append_cons]
  refine called.neutral (x := .heard name v) trivial ?_
  rw [← List.append_cons]
  exact called.voiced.hears found

section

variable {act act' : String → σ → Act W Unit} (copy : α → Act W Unit)
  (acts : ∀ name s, (chronicle p past initial).Carries (act name s) (act' name s))

include acts

/-- A subscriber is called to its end, however its script ends. -/
theorem deliver_adds (hp : p.Recorded past) {w : W} (a : Agrees initial (p.cell w) (past w))
    (pass : Option Nat) {id : Nat} (known : .registered id ∈ past w) {v : α}
    (ready : ∀ name, Underway initial (past w ++ [.called pass id v, .heard name v])) :
    p.Adds past initial w (Call initial pass id v (past w))
      (p.deliver (Listener.hear p act copy) pass id v)
      (p.deliver (Listener.hear p act' copy) pass id v) := by
  obtain ⟨name, rules, found⟩ := a.script_of_registered known
  have noted := hp.past_answered pass id name v w
  have answers := hp.answered_agrees a found pass v
  -- Between the two lines nothing is done, so that the rules begin after both.
  have begins (act : String → σ → Act W Unit) :
      (Listener.hear p act copy id (.script name rules) v).perform (p.note (.called pass id v) w) =
        (Listener.obey p (act name) id v 0 rules).perform (answered p pass id name v w) := rfl
  obtain ⟨same, ⟨sound, underway⟩, leads⟩ :=
    Listener.obey_carries hp.admits_spend (fun s (_ : True) => acts name s) id v rules
      (fun _ _ _ _ => trivial) 0 (answered p pass id name v w) ⟨answers, noted ▸ ready name⟩
  -- However the script ends, its end is noted, and the call is complete.
  have complete (u : W) (ending : Occurrence α)
      (h : ∃ s, past u = past (answered p pass id name v w) ++ s ∧
        Episode initial (past (answered p pass id name v w)) s)
      (whole : ∀ s, Episode initial (past w ++ [.called pass id v, .heard name v]) s →
        Call initial pass id v (past w) (.called pass id v :: .heard name v :: s ++ [ending])) :
      ∃ s, past (p.note ending u) = past w ++ s ∧ Call initial pass id v (past w) s := by
    obtain ⟨s, hs, es⟩ := h
    rw [noted] at hs es
    exact ⟨_, by rw [hp.past_note, hs]; simp, whole s es⟩
  refine ⟨by simp only [perform_deliver found, begins, same], ?_, ?_, ?_⟩
  all_goals
    simp only [perform_deliver found, begins]
    rcases ran : (Listener.obey p (act name) id v 0 rules).perform (answered p pass id name v w)
      with ⟨(_ | _) | _, u⟩
    all_goals rw [ran] at sound underway leads
  · exact hp.neutral_agrees sound trivial (by simp)
  · exact sound
  · exact hp.neutral_agrees sound trivial (by simp)
  · exact fun _ => ⟨rfl, complete u _ (leads rfl) fun _ => .faulted name⟩
  · exact fun h => absurd h (by simp [Act.isExhausted])
  · exact fun _ => ⟨rfl, complete u _ (leads rfl) fun _ => .returned name⟩
  · exact fun h => absurd h (by simp [Act.isExhausted])
  · exact fun _ => underway
  · exact fun h => absurd h (by simp [Act.isExhausted])

/-- The subscribers take their turns, whatever the callbacks of the others do. -/
theorem announce_adds (hp : p.Recorded past)
    (number : Nat) (v : α) {ids : List Nat} {w : W} (a : Agrees initial (p.cell w) (past w))
    (known : ∀ id ∈ ids, .registered id ∈ past w)
    (ready : ∀ early id late t, ids = early ++ id :: late →
      Turns initial number v early (past w) t → .silenced id ∉ past w ++ t → ∀ name,
        Underway initial (past w ++ t ++ [.called (some number) id v, .heard name v])) :
    p.Adds past initial w (Turns initial number v ids (past w))
      (p.announce (Listener.hear p act copy) number v ids)
      (p.announce (Listener.hear p act' copy) number v ids) := by
  -- On those whose turn is still to come; the history before each turn is longer than before the
  -- last.
  induction ids generalizing w with
  | nil => exact ⟨rfl, a, fun _ => ⟨rfl, [], by simp [announce], .nil⟩, fun h => by cases h⟩
  | cons id ids ih =>
    have here := known id List.mem_cons_self
    have later (u : W) (s : History α) (hs : past u = past w ++ s) :
        ∀ j ∈ ids, .registered j ∈ past u := fun j hj => by
      rw [hs]
      exact List.mem_append_left _ (known j (List.mem_cons_of_mem id hj))
    -- Whatever turn the first one had, the others have theirs after it.
    have next (u : W) (s : History α) (hs : past u = past w ++ s)
        (first : ∀ early t, Turns initial number v early (past w ++ s) t →
          Turns initial number v (id :: early) (past w) (s ++ t)) :
        ∀ early j late t, ids = early ++ j :: late → Turns initial number v early (past u) t →
          .silenced j ∉ past u ++ t → ∀ name,
            Underway initial (past u ++ t ++ [.called (some number) j v, .heard name v]) := by
      intro early j late t split turns on name
      rw [hs] at turns on ⊢
      have := ready (id :: early) j late (s ++ t) (by rw [split]; rfl) (first early t turns)
        (by rwa [← List.append_assoc]) name
      rwa [← List.append_assoc] at this
    cases on : (p.cell w).isActive id with
    | true =>
      have off : .silenced id ∉ past w := ((a.active id).1 on).2
      have rest (u : W) (s : History α) (hs : past u = past w ++ s)
          (qs : Call initial (some number) id v (past w) s)
          (au : Agrees initial (p.cell u) (past u)) :
          p.Adds past initial u (fun t => Turns initial number v (id :: ids) (past w) (s ++ t))
            (p.announce (Listener.hear p act copy) number v ids)
            (p.announce (Listener.hear p act' copy) number v ids) :=
        (ih au (later u s hs) (next u s hs fun _ _ => .called off qs)).after (s := []) rfl rfl
          (by simp) fun t turns => .called off qs (hs ▸ turns)
      have turn (name : String) :
          Underway initial (past w ++ [.called (some number) id v, .heard name v]) := by
        simpa using ready [] id ids [] rfl .nil (by simpa using off) name
      exact ((deliver_adds copy acts hp a (some number) here turn).bind rest).after (s := [])
        (perform_announce_active on number v ids) (perform_announce_active on number v ids)
        (by simp) fun t turns => turns
    | false =>
      -- The history knows why the subscriber is not active: it was registered, so it was silenced.
      have off : .silenced id ∈ past w := by
        refine Classical.byContradiction fun off => ?_
        exact absurd ((a.active id).2 ⟨here, off⟩) (by simp [on])
      have noted := hp.past_note (.passedOver number id) w
      exact (ih (hp.neutral_agrees a (x := .passedOver number id) trivial (by simp)) (later _ _ noted)
        (next _ _ noted fun _ _ => .passedOver off)).after
        (perform_announce_silenced on number v ids) (perform_announce_silenced on number v ids)
        noted fun t turns => .passedOver off (noted ▸ turns)

/-- A change of a value that nobody holds is made, and its pass is complete. -/
theorem set_adds (hp : p.Recorded past) {w : W} (a : Ready initial (p.cell w) (past w))
    (free : (p.cell w).isBorrowed = false) (v : α) :
    p.Adds past initial w
      (fun s => ∃ t, s = .committed ((stored (past w)).length + 1) v :: t ∧
        Turns initial ((stored (past w)).length + 1) v (listed (past w))
          (past w ++ [.committed ((stored (past w)).length + 1) v]) t)
      (p.set (Listener.hear p act copy) v) (p.set (Listener.hear p act' copy) v) := by
  have next : past (p.committed v w) = past w ++ [.committed ((p.cell w).version + 1) v] := by
    rw [committed, hp.past_note, hp.past_adjust]
  have stored : Agrees initial (p.cell (p.committed v w)) (past (p.committed v w)) := by
    rw [next, hp.cell_committed]
    exact a.store v
  -- Those who have turns are listed already, before the value is stored.
  have known : ∀ id ∈ (p.cell w).listed, .registered id ∈ past (p.committed v w) := by
    intro id hid
    rw [a.listed] at hid
    rw [next]
    exact List.mem_append_left _ (mem_registered_of_mem_listed hid)
  have pass := announce_adds copy acts hp ((p.cell w).version + 1) v stored known
    fun early id late t split turns on name => by
      rw [next, a.version] at turns on ⊢
      rw [a.listed] at split
      simpa using a.underway.turn name split turns (by simpa using on)
  rw [next] at pass
  rw [← a.version, ← a.listed]
  exact pass.after (hp.perform_set_free free v) (hp.perform_set_free free v) next
    fun t turns => ⟨t, rfl, turns⟩

theorem subscribe_carries (hp : p.Recorded past) {callback : Listener σ α}
    (isScript : ∀ skip, callback ≠ .keeper skip) :
    (chronicle p past initial).Carries (p.subscribe (Listener.hear p act copy) callback)
      (p.subscribe (Listener.hear p act' copy) callback) := by
  intro w a
  cases free : (p.cell w).isBorrowed with
  | true =>
    constructor <;> simp only [perform_subscribe_borrowed free]
    · exact a
    · exact (chronicle p past initial).refl w
  | false =>
    have number : (p.cell w).nextId = (registered (past w)).length := by
      simp [← a.nextId]
    have next : past (p.enlisted callback w) = past w ++ [.registered (p.cell w).nextId] := by
      rw [enlisted, hp.past_note, hp.past_adjust]
    have enlisted : Agrees initial (p.cell (p.enlisted callback w))
        (past (p.enlisted callback w)) := by
      rw [next, hp.cell_enlisted]
      exact a.toAgrees.register isScript
    -- The number is a new one, which nobody was silenced by.
    have new : .silenced (p.cell w).nextId ∉ past w := fun was =>
      Nat.lt_irrefl _ (a.registered_iff.1 (a.silenced _ was))
    have known : .registered (p.cell w).nextId ∈ past (p.enlisted callback w) := by simp [next]
    have ready (name : String) : Underway initial (past (p.enlisted callback w) ++
        [.called none (p.cell w).nextId (p.cell w).value, .heard name (p.cell w).value]) := by
      rw [number] at new
      rw [next, number, a.value]
      simpa using a.underway.first name new
    -- Registering is part of what is added, since no action begins between it and the first call.
    have first : p.Adds past initial w
        (fun s => ∃ c, s = .registered (p.cell w).nextId :: c ∧
          Call initial none (p.cell w).nextId (p.cell w).value (past (p.enlisted callback w)) c)
        (do
          modify (p.enlisted callback)
          p.deliver (Listener.hear p act copy) none (p.cell w).nextId (p.cell w).value)
        (do
          modify (p.enlisted callback)
          p.deliver (Listener.hear p act' copy) none (p.cell w).nextId (p.cell w).value) :=
      (deliver_adds copy acts hp enlisted none known ready).after rfl rfl next fun c call =>
        ⟨c, rfl, call⟩
    have carries := first.carriesFrom a.underway fun s added => by
      obtain ⟨c, hs, call⟩ := added
      rw [next, a.value, number] at call
      rw [number] at new hs
      rw [hs]
      simpa using Episode.registered new call .nil
    refine (carries.map fun _ => (p.cell w).nextId).after ?_ ?_ ((chronicle p past initial).refl w)
    all_goals
      rw [hp.perform_subscribe_free free, Act.perform_map, Act.perform_map]
      rfl

theorem steady (hp : p.Recorded past) (allowed : σ → Prop) :
    p.Steady (chronicle p past initial) (Listener.IsScript allowed) (Listener.hear p act copy)
      (Listener.hear p act' copy) where
  set v := by
    intro w a
    cases free : (p.cell w).isBorrowed with
    | true =>
      constructor <;> simp only [perform_set_borrowed free]
      · exact a
      · exact (chronicle p past initial).refl w
    | false =>
      refine (set_adds copy acts hp a free v).carriesFrom a.underway fun s ⟨t, hs, turns⟩ => ?_
      rw [hs]
      simpa using Episode.committed turns .nil
  borrowing m m' hm := by
    -- Borrowing and giving back leave the history as it is.
    have silent (f : Observable α (Listener σ α) → Observable α (Listener σ α)) (w : W)
        (a : Agrees initial (p.cell w) (past w) → Agrees initial (f (p.cell w)) (past w))
        (h : Ready initial (p.cell w) (past w)) :
        (chronicle p past initial).sound (p.adjust f w) ∧
          (chronicle p past initial).leads false w (p.adjust f w) := by
      refine chronicle_leads h.underway ?_ (by rw [hp.past_adjust, List.append_nil]) .nil
      rw [hp.cell_adjust, hp.past_adjust]
      exact a h.toAgrees
    exact borrowing_carries (fun w => silent (·.borrow) w (·.borrow))
      (fun w => silent (·.release) w (·.release)) hm
  subscribe callback isScript := subscribe_carries copy acts hp isScript.2

end

theorem unsubscribe_carries (hp : p.Recorded past) (id : Nat) :
    (chronicle p past initial).Carries (p.unsubscribe id) (p.unsubscribe id) := by
  intro w a
  cases on : (p.cell w).isActive id with
  | false =>
    constructor <;> simp only [perform_unsubscribe_inactive on]
    · exact a
    · exact (chronicle p past initial).refl w
  | true =>
    obtain ⟨known, new⟩ := (a.active id).1 on
    have next : past (p.hushed id w) = past w ++ [.silenced id] := by
      rw [hushed, hp.past_note, hp.past_adjust]
    have hushed : Agrees initial (p.cell (p.hushed id w)) (past (p.hushed id w)) := by
      rw [next, hp.cell_hushed]
      exact a.silence on
    -- The list can only be changed while nobody holds the value.
    cases free : (p.cell w).isBorrowed with
    | true =>
      obtain ⟨sound, leads⟩ := chronicle_leads a.underway hushed next (.stuck known new .nil)
      constructor <;> simp only [hp.perform_unsubscribe_borrowed on free]
      · exact sound
      · exact leads
    | false =>
      obtain ⟨sound, leads⟩ := chronicle_leads (p := p)
        (u := p.note (.delisted id) (p.adjust (·.delist id) (p.hushed id w))) a.underway
        (by
          rw [hp.cell_note, hp.cell_adjust, hp.past_note, hp.past_adjust]
          exact hushed.delist id)
        (by rw [hp.past_note, hp.past_adjust, next, List.append_assoc]; rfl)
        (.silenced known new .nil)
      constructor <;> simp only [hp.perform_unsubscribe_free on free]
      · exact sound
      · exact leads

end Recorded

end Place

end LiveState
