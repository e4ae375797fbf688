import LiveState.Proofs.Numerals
import LiveState.Proofs.Session.Attendance
import LiveState.Proofs.Session.Commands
import LiveState.Proofs.Session.Ending

/-! # New limits

A word of the command line becomes the limit of the results in a context, as the very number that
it stands for.
-/

namespace LiveState

open Arguments (IsNumeral IsCanonical)

/-- What is shown of a new limit. -/
def limitShown (digits : String) : ByteArray := ("Showing up to " ++ digits ++ " results\n").toUTF8

namespace Session

variable {ρ : Type} {w : World ρ} {i n : Nat} {name : String}

/-! ## The command -/

/-- The same settings with another limit. -/
def Limited (n : Nat) (u v : UserSettings) : Prop := v.resultLimit.toInt = n ∧ v.extra = u.extra

theorem limited_toNat (limit : UInt32) (u : UserSettings) :
    Limited limit.toNat u ((Command.setLimit limit).after u) := by
  have small := limit.toNat_lt
  exact ⟨Int64.toInt_ofNat_of_lt (by omega), rfl⟩

theorem perform_setLimit {β : Type} (f : Command.Output → β) (a : Access) (i : Nat) (limit : UInt32)
    (nested : Nested (World ρ) (Step ρ)) (w : World ρ) :
    (f <$> (Command.setLimit limit).execute (contextPanelsSite i) (contextSettingsSite a i)
        nested).perform w =
      ((fun _ => f ⟨"Showing up to " ++ toString limit.toNat ++ " results\n", none⟩) <$>
        (contextSettingsSite a i).value.set ((contextSettingsSite a i).call nested)
          ((Command.setLimit limit).after (w.settingsOf i))).perform w := by
  rw [map_eq_pure_bind, map_eq_pure_bind, Command.execute, bind_assoc, Act.perform_bind,
    Act.perform_bind, Place.perform_update]
  rfl

/-! ## Sessions -/

variable [Inhabited ρ] {files : FileTree} [Settings.Record ρ] [Text.Describe ρ]

/-- How the command for a limit is executed in context `i`, which has a name: the limit is `n`, and
    `digits` are shown. -/
structure World.TakesLimit (w : World ρ) (name : String) (i : Nat) (limit : UInt32) (n : Nat)
    (digits : String) : Prop where
  /-- Settings that somebody holds stay as they are. -/
  refused : (w.settingsCell i).isBorrowed = true → ∀ room budget,
    ((language ρ).exec (budget + 1) (.execute name (.setLimit limit) room)).perform w =
      (.error .panic, w.record (.began (.execute name (.setLimit limit) room)))
  /-- Else the limit is stored in the settings and on the medium.  Then the other subscribers hear
      of it. -/
  taken : (w.settingsCell i).isBorrowed = false → ∀ room,
    Command.Writer.fits (limitShown digits) ⟨room, .empty⟩ = true →
    ∃ u others, (w.settingsCell i).listed = 0 :: others ∧
      Limited n (w.settingsOf i) (u.settingsOf i) ∧
      (∀ m, w.media.write (w.contextAccess i).medium settingsKey (u.settingsOf i).bytes =
          (.answered (), m) →
        u.media.holding (w.contextAccess i).medium settingsKey =
          some (.bytes (u.settingsOf i).bytes)) ∧
      ∀ budget,
        ((language ρ).exec (budget + 1) (.execute name (.setLimit limit) room)).perform w =
          ((fun _ => Reply.output (limitShown digits) none) <$>
            (contextSettingsSite (w.contextAccess i) i).value.announce
              ((contextSettingsSite (w.contextAccess i) i).call
                ((language ρ).nested ((language ρ).exec budget)))
              ((w.settingsCell i).version + 1) (u.settingsOf i) others).perform u
  /-- At the end the settings are the same, unless they were set once more meanwhile.  The command is
      cut short only by a budget that is less than what the other subscribers may set off. -/
  ends : (w.settingsCell i).isBorrowed = false → ∀ room,
    Command.Writer.fits (limitShown digits) ⟨room, .empty⟩ = true → ∀ budget, ∃ e u,
      ((language ρ).exec (budget + 1) (.execute name (.setLimit limit) room)).perform w = (e, u) ∧
      (e = .ok (.output (limitShown digits) none) ∨ e = .error .exhausted ∧ budget < w.funds) ∧
      ((u.settingsCell i).version = (w.settingsCell i).version + 1 →
        Limited n (w.settingsOf i) (u.settingsOf i))

/-- A limit is set and written back, and then the others hear of it. -/
theorem World.Attended.setLimit (h : w.Attended files) (named : w.contextNames.get? name = some i)
    (free : (w.settingsCell i).isBorrowed = false) (limit : UInt32) {room : Option Nat}
    (fits : Command.Writer.fits (limitShown (toString limit.toNat)) ⟨room, .empty⟩ = true) :
    ∃ u others, (w.settingsCell i).listed = 0 :: others ∧ 0 ∉ others ∧
      w.WroteBack files i ((Command.setLimit limit).after (w.settingsOf i)) u ∧
      ∀ budget,
        ((language ρ).exec (budget + 1) (.execute name (.setLimit limit) room)).perform w =
          ((fun _ => Reply.output (limitShown (toString limit.toNat)) none) <$>
            (contextSettingsSite (w.contextAccess i) i).value.announce
              ((contextSettingsSite (w.contextAccess i) i).call
                ((language ρ).nested ((language ρ).exec budget)))
              ((w.settingsCell i).version + 1)
              ((Command.setLimit limit).after (w.settingsOf i)) others).perform u := by
  let began : World ρ := w.record (.began (.execute name (.setLimit limit) room))
  have attended : began.Attended files := h.record (by simp [Modest])
  have onward : w.Onward began := .of_eq rfl rfl
  obtain ⟨u, others, wrote, listed, once, ran⟩ := attended.set (h.names name i named) rfl free
    ((Command.setLimit limit).after (w.settingsOf i))
  refine ⟨u, others, listed, once, ⟨wrote.cell, wrote.media, wrote.attended,
    onward.trans wrote.onward⟩, fun budget => ?_⟩
  have shown := Command.Output.through_of_fits
    (o := ⟨"Showing up to " ++ toString limit.toNat ++ " results\n", none⟩) fits
  rw [exec_execute_of_named named, perform_setLimit, shown, Act.perform_map, Act.perform_map]
  exact congrArg (fun r => (Except.map _ r.1, r.2)) (ran _)

theorem World.Attended.takesLimit (h : w.Attended files) (named : w.contextNames.get? name = some i)
    (limit : UInt32) : w.TakesLimit name i limit limit.toNat (toString limit.toNat) where
  refused borrowed room budget := by
    rw [exec_execute_of_named named, perform_setLimit, Act.perform_map,
      Place.perform_set_borrowed (w := w.record _) borrowed]
    rfl
  taken free room fits := by
    obtain ⟨u, others, listed, -, wrote, ran⟩ := h.setLimit named free limit fits
    rw [← wrote.value] at ran
    refine ⟨u, others, listed, ?_, fun m answered => ?_, ran⟩
    · rw [wrote.value]
      exact limited_toNat limit (w.settingsOf i)
    · rw [wrote.media, ← wrote.value, answered]
      exact Media.holding_of_answered (h.attended i (h.names name i named)).has answered
  ends free room fits budget := by
    obtain ⟨u, others, -, once, wrote, ran⟩ := h.setLimit named free limit fits
    have small := h.names name i named
    have small' := Nat.lt_of_lt_of_le small wrote.onward.size
    let pass : Act (World ρ) Unit := (contextSettingsSite (w.contextAccess i) i).value.announce
      ((contextSettingsSite (w.contextAccess i) i).call
        ((language ρ).nested ((language ρ).exec budget))) ((w.settingsCell i).version + 1)
      ((Command.setLimit limit).after (w.settingsOf i)) others
    have calm : (pass.perform u).1 ≠ .error .panic :=
      Place.announce_ne_panic _ _ _ _
    have onward : u.Onward (pass.perform u).2 := (attendingAt_announce (nested_attending budget) _ _
      once u ⟨wrote.attended, small', wrote.onward.access i small⟩).leads.1
    have done := ran budget
    rw [Act.perform_map] at done
    refine ⟨_, (pass.perform u).2, done, ?_, fun version => ?_⟩
    · have cut (exhausted : (pass.perform u).1 = .error .exhausted) : budget < w.funds :=
        Nat.lt_of_succ_lt_succ (h.lt_of_exhausted
          (done.trans (Prod.ext (congrArg (Except.map _) exhausted) rfl)))
      show Except.map _ (pass.perform u).1 = _ ∨ Except.map _ (pass.perform u).1 = _ ∧ _
      rcases ended : (pass.perform u).1 with (_ | _) | _
      · exact absurd ended calm
      · exact .inr ⟨rfl, cut ended⟩
      · exact .inl rfl
    -- Nobody has set the settings since they were written back.
    · have value := (onward.settings i small').value (version.trans (by rw [wrote.cell]; rfl))
      rw [show ((pass.perform u).2.settingsOf i) = u.settingsOf i from value, wrote.value]
      exact limited_toNat limit (w.settingsOf i)

/-- The numerals of 32 bits, and no other words, are understood as limits, each as the very number
    that it stands for.  Whatever the steps of a session are, whenever a step begins and at the end:
    the command sets the limit of a context to that number and leaves the other settings, stores
    them if the medium takes them, and shows the number without idle zeros. -/
theorem setLimit_takes_numerals {t : String} (plain : t.toList.head? ≠ some '-') (files : FileTree)
    (budget : Nat) (steps : List (Step ρ)) :
    ((∃ invocation, Arguments.parse ["set-limit", t] = .ok invocation) ↔
        ∃ n ≤ 4294967295, IsNumeral t n) ∧
      ∀ n ≤ 4294967295, IsNumeral t n → ∃ limit digits,
        Arguments.parse ["set-limit", t] = .ok ⟨none, none, some (.setLimit limit)⟩ ∧
        IsCanonical digits n ∧
        (language ρ).Throughout
          (fun w => ∀ name i, w.contextNames.get? name = some i → w.TakesLimit name i limit n digits)
          budget steps (World.start files) := by
  refine ⟨Arguments.parses_setLimit_iff plain, fun n small numeral => ?_⟩
  obtain ⟨limit, rfl, parsed⟩ := Arguments.parse_numeral plain small numeral
  refine ⟨limit, toString limit.toNat, parsed, Arguments.isCanonical_toString _, ?_⟩
  exact pursues_attending.throughout
    (fun _ h _ _ named => World.Attended.takesLimit h named limit)
    budget (fun _ _ => trivial) (.start files)

/-- A limit with a sign and idle zeros, in a session where a subscriber sets the settings once more
    as soon as it hears of the limit. -/
theorem setLimit_takes_numerals_seven :
    let steps : List (Step UserSettings) := [.medium "m" (.openAs (.memory [])), .context "c" "m",
      .contextSettings "c" (.value (.subscribe "s"
        [⟨fun u => u.resultLimit == 7, 1, [.contextSettings "c" .reset]⟩]))]
    ((language UserSettings).run 2 steps (World.start (.empty []))).2.contextNames.get? "c" =
        some 0 ∧
      "+007".toList.head? ≠ some '-' ∧ IsNumeral "+007" 7 ∧ ∃ limit digits,
        Arguments.parse ["set-limit", "+007"] = .ok ⟨none, none, some (.setLimit limit)⟩ ∧
        IsCanonical digits 7 ∧
        (language UserSettings).Throughout
          (fun w => ∀ name i, w.contextNames.get? name = some i → w.TakesLimit name i limit 7 digits)
          2 steps (World.start (.empty [])) := by
  intro steps
  have plain : "+007".toList.head? ≠ some '-' := by decide
  have numeral : IsNumeral "+007" 7 := ⟨['0', '0', '7'], .inr rfl, by simp [Arguments.IsDigits,
    Arguments.digitsValue, Nat.ofDigits]⟩
  exact ⟨by decide, plain, numeral,
    (setLimit_takes_numerals plain (.empty []) 2 steps).2 7 (by decide) numeral⟩

end Session

end LiveState
