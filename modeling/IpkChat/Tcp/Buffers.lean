/-
IpkChat.Tcp.Buffers — the stores of the TCP handlers into their arrays.

`Tcp.Receive` says what a handler does with the texts it finds; here is
every byte that it writes into `result`, `content` and `display_name`,
with the index it goes to. The two descriptions are held together by
`processTcpMessage_faults_iff`: a handler faults if and only if one of its
stores is out of bounds, so the checks in `Tcp.Receive` are the right
ones.

The name of a MSG or an ERR is cut before it is copied, and `%3s` takes no
more than three bytes. The copies of the contents are unbounded, as is the
copy of the name of a BYE, and the arrays have no room for more than
`MAX_MESSAGE_CONTENT_LEN` and `MAX_DISPLAY_NAME_LEN` bytes and a
terminator. `stores_inBounds_iff` says which lines fit, without a word of
the handlers: `TextsFit` names the texts of the line by `ReplyShape` and
`FromShape`.

Both equivalences are put together from one for each kind of line. Which
kind a line is follows from its first word, and no line has two of them
(`word_conflict`). The stores come in the source's order, so a conversion
that finds its text stores it even when the next one finds nothing.
-/
import IpkChat.CProg.Filling
import IpkChat.Tcp.Scan

namespace IpkChat.Tcp

open CProg Wire Client

/-! ## Arrays -/

/-- The local arrays of the handlers. -/
inductive LocalArray where
  | result
  | content
  | displayName
  deriving DecidableEq

def LocalArray.size : LocalArray → Nat
  | result => 4
  | content => maxMessageContentLen + 1
  | displayName => maxDisplayNameLen + 1

/-- `array[index] = value` -/
structure LocalStore where
  array : LocalArray
  index : Nat
  value : UInt8
  deriving DecidableEq

/-- The store is inside the array. -/
def LocalStore.InBounds (s : LocalStore) : Prop := s.index < s.array.size

instance (s : LocalStore) : Decidable s.InBounds := inferInstanceAs (Decidable (_ < _))

/-- Every store is inside its array. -/
def AllInBounds (stores : List LocalStore) : Prop := ∀ s ∈ stores, s.InBounds

/-- The bytes `s` from the front of the array on. -/
def storesTo (array : LocalArray) (s : Bytes) : List LocalStore :=
  (storesAt 0 s).map fun (index, value) => ⟨array, index, value⟩

/-- `= {0}` -/
def clear (array : LocalArray) : List LocalStore :=
  storesTo array (List.replicate array.size 0)

/-- `strcpy(array, s)`, and what `sscanf` stores for a conversion. -/
def strcpy (array : LocalArray) (s : Bytes) : List LocalStore := storesTo array (s ++ [0])

/-- `strncpy(array, s, n)` -/
def strncpy (array : LocalArray) (s : Bytes) (n : Nat) : List LocalStore :=
  storesTo array ((s ++ List.replicate n 0).take n)

section

variable {array : LocalArray} {s : Bytes}

@[simp] theorem allInBounds_nil : AllInBounds [] := by
  intro s hs
  cases hs

@[simp] theorem allInBounds_append {l l' : List LocalStore} :
    AllInBounds (l ++ l') ↔ AllInBounds l ∧ AllInBounds l' := by
  simp [AllInBounds, or_imp, forall_and]

/-- Stores from the front on fit if and only if there are no more of them than
the array has bytes. -/
theorem storesTo_inBounds_iff : AllInBounds (storesTo array s) ↔ s.length ≤ array.size := by
  have hindex : AllInBounds (storesTo array s) ↔ ∀ i ∈ (storesAt 0 s).map Prod.fst,
      i < array.size := by
    rw [AllInBounds, storesTo, List.forall_mem_map, List.forall_mem_map]
    rfl
  rw [hindex, indices_storesAt]
  simp only [List.mem_range'_1, Nat.zero_add, Nat.zero_le, true_and]
  constructor
  · intro h
    by_contra hlt
    exact absurd (h array.size (by omega)) (by omega)
  · intro h i hi
    omega

@[simp] theorem clear_inBounds : AllInBounds (clear array) := by
  rw [clear, storesTo_inBounds_iff, List.length_replicate]

/-- A string and its terminator. -/
@[simp] theorem strcpy_inBounds_iff : AllInBounds (strcpy array s) ↔ s.length < array.size := by
  rw [strcpy, storesTo_inBounds_iff, List.length_append, List.length_singleton]
  exact Nat.succ_le_iff

theorem strncpy_inBounds {n : Nat} (h : n ≤ array.size) : AllInBounds (strncpy array s n) :=
  storesTo_inBounds_iff.mpr (Nat.le_trans (List.length_take_le _ _) h)

end

/-! ## The handlers -/

/-- `%3s`, and what is left to scan. -/
def scanResult (message : Bytes) : Option (Bytes × Bytes) := do
  let s ← scanWord (str "REPLY") message
  scanRun 3 (fun c => !isspace c) (scanBlank (scanBlank s))

/-- `%[^\r\n]` behind ` IS `. -/
def scanContent (s : Bytes) : Option Bytes := do
  let s ← scanWord (str "IS") (scanBlank s)
  let s := scanBlank s
  let (content, _) ← scanRun s.length (fun c => c != 13 && c != 10) s
  return content

/-- A conversion stores what it takes, whether or not the next one takes
anything. -/
def replyStores (message : Bytes) : List LocalStore :=
  clear .content ++
    match scanResult message with
    | none => []
    | some (result, s) =>
        strcpy .result result ++
          match scanContent s with
          | none => []
          | some content => strcpy .content content

/-- The handlers of MSG and ERR. -/
def fromIsStores (message : Bytes) : List LocalStore :=
  clear .displayName ++ clear .content ++
    match strstr (str "FROM ") message with
    | none => []
    | some fromPos =>
        let tail := message.drop (fromPos + 5)
        match strstr (str " IS ") tail with
        | none => []
        | some isPos =>
            let displayNameLen := min isPos maxDisplayNameLen
            strncpy .displayName tail displayNameLen ++ [⟨.displayName, displayNameLen, 0⟩]
              ++ strcpy .content (tail.drop (isPos + 4))

def byeStores (message : Bytes) : List LocalStore :=
  clear .displayName ++
    match strstr (str "FROM ") message with
    | none => []
    | some fromPos => strcpy .displayName (message.drop (fromPos + 5))

/-- The stores of the handler that `process_tcp_message` selects; the last
branch has none of these arrays. -/
def handlerStores (message : Bytes) : List LocalStore :=
  if str "REPLY " <+: message then replyStores message
  else if str "MSG FROM " <+: message then fromIsStores message
  else if str "ERR FROM " <+: message then fromIsStores message
  else if str "BYE FROM " <+: message then byeStores message
  else []

/-! ## The texts that are copied -/

/-- The whole scan is the scan of the result and that of the content behind
it. -/
theorem scanReply_eq (message : Bytes) :
    scanReply message =
      (scanResult message).bind fun p => (scanContent p.2).map fun content => (p.1, content) := by
  unfold scanReply scanResult scanContent
  cases scanWord (str "REPLY") message with
  | none => rfl
  | some s =>
    simp only [Option.bind_eq_bind, Option.bind_some]
    cases scanRun 3 (fun c => !isspace c) (scanBlank (scanBlank s)) with
    | none => rfl
    | some p =>
      simp only [Option.bind_some]
      cases scanWord (str "IS") (scanBlank p.2) with
      | none => rfl
      | some t =>
        simp only [Option.bind_some]
        cases scanRun (scanBlank t).length (fun c => c != 13 && c != 10) (scanBlank t) <;> rfl

/-- `%3s` leaves room for the terminator. -/
theorem scanResult_length {message result s : Bytes} (h : scanResult message = some (result, s)) :
    result.length < LocalArray.result.size := by
  unfold scanResult at h
  obtain ⟨t, -, h⟩ := Option.bind_eq_some_iff.mp h
  obtain ⟨-, -, hle, -⟩ := scanRun_eq_some_iff.mp h
  exact Nat.lt_succ_of_le hle

/-- What is said of the texts that were found. -/
theorem forall_found_iff {α β : Type} {x : α} {y : β} {p : β → Prop} :
    (∀ a b, (x, y) = (a, b) → p b) ↔ p y := by
  constructor
  · intro h
    exact h x y rfl
  · rintro h a b ⟨rfl, rfl⟩
    exact h

/-- Of a REPLY only the content can be too long. -/
theorem replyStores_inBounds_iff (message : Bytes) :
    AllInBounds (replyStores message) ↔
      ∀ result content, scanReply message = some (result, content) →
        content.length < LocalArray.content.size := by
  rw [replyStores, scanReply_eq]
  cases hresult : scanResult message with
  | none => simp
  | some p =>
    have hfits := scanResult_length hresult
    cases hcontent : scanContent p.2 with
    | none => simp [hcontent, hfits]
    | some content => simp [hcontent, hfits]

/-- The display name is cut to fit; the content is not. -/
theorem fromIsStores_inBounds_iff (kind message : Bytes) :
    AllInBounds (fromIsStores message) ↔
      ∀ displayName content, splitFromIs kind message = .ok (displayName, content) →
        content.length < LocalArray.content.size := by
  rw [fromIsStores, splitFromIs]
  cases strstr (str "FROM ") message with
  | none => simp
  | some fromPos =>
    dsimp only
    cases strstr (str " IS ") (message.drop (fromPos + 5)) with
    | none => simp
    | some isPos =>
      have hcopy : AllInBounds (strncpy .displayName (message.drop (fromPos + 5))
          (min isPos maxDisplayNameLen)) :=
        strncpy_inBounds (Nat.le_succ_of_le (Nat.min_le_right _ _))
      have hend : AllInBounds [⟨.displayName, min isPos maxDisplayNameLen, 0⟩] := by
        intro s hs
        rw [List.mem_singleton] at hs
        subst hs
        exact Nat.lt_succ_of_le (Nat.min_le_right _ _)
      simp only [allInBounds_append, clear_inBounds, hcopy, hend, strcpy_inBounds_iff, true_and,
        Except.ok.injEq, forall_found_iff]

/-- The name of a BYE is copied as it is. -/
theorem byeStores_inBounds_iff (message : Bytes) :
    AllInBounds (byeStores message) ↔
      ∀ fromPos, strstr (str "FROM ") message = some fromPos →
        (message.drop (fromPos + 5)).length < LocalArray.displayName.size := by
  rw [byeStores]
  cases strstr (str "FROM ") message with
  | none => simp
  | some fromPos => simp only [allInBounds_append, clear_inBounds, strcpy_inBounds_iff, true_and,
      Option.some.injEq, forall_eq']

/-! ## Faults -/

/-- The run ends in an access outside an array. -/
def Faults (r : Outcome Globals Out Stop Unit) : Prop := r.ctl = .error (.fault .outOfBounds)

/-- A check in front of a part that does not fault. -/
theorem fitsIn_bind_faults_iff {size : Nat} {s : Bytes} {f : Unit → Action Unit}
    (hf : ∀ g, ¬ Faults (f () g)) (g : Globals) :
    Faults ((fitsIn size s >>= f) g) ↔ ¬ s.length < size := by
  by_cases h : s.length < size
  · simpa [fitsIn, h, Faults] using hf g
  · simp [fitsIn, h, Faults]

theorem processTcpReplyMessage_faults_iff (message : Bytes) (g : Globals) :
    Faults (processTcpReplyMessage message g) ↔ ¬ AllInBounds (replyStores message) := by
  rw [replyStores_inBounds_iff, processTcpReplyMessage]
  rcases scanReply message with _ | ⟨result, content⟩
  · simp [Faults]
  · simp only [Option.some.injEq, forall_found_iff]
    refine fitsIn_bind_faults_iff (fun g' => ?_) g
    simp only [Prog.bind_apply, Prog.get_apply, Outcome.andThen_ok, Outcome.after_nil]
    split_ifs
    · cases g'.state <;> simp [Faults]
    · simp [Faults]
    · simp [Faults]
    · simp [Faults]

/-- A handler that finds the two texts with `splitFromIs` and copies the
second. -/
theorem splitFromIs_faults_iff {kind message : Bytes} {f : Bytes → Bytes → Action Unit}
    (hf : ∀ displayName content g, ¬ Faults (f displayName content g)) (g : Globals) :
    Faults ((match splitFromIs kind message with
      | .error complaint => Prog.emit complaint
      | .ok (displayName, content) => do
          fitsIn (maxMessageContentLen + 1) content
          f displayName content) g) ↔ ¬ AllInBounds (fromIsStores message) := by
  rw [fromIsStores_inBounds_iff kind]
  rcases splitFromIs kind message with complaint | ⟨displayName, content⟩
  · simp [Faults]
  · simp only [Except.ok.injEq, forall_found_iff]
    exact fitsIn_bind_faults_iff (hf displayName content) g

theorem processTcpMsgMessage_faults_iff (message : Bytes) (g : Globals) :
    Faults (processTcpMsgMessage message g) ↔ ¬ AllInBounds (fromIsStores message) :=
  splitFromIs_faults_iff (by simp [Faults]) g

theorem processTcpErrMessage_faults_iff (message : Bytes) (g : Globals) :
    Faults (processTcpErrMessage message g) ↔ ¬ AllInBounds (fromIsStores message) :=
  splitFromIs_faults_iff (by simp [Faults]) g

theorem processTcpByeMessage_faults_iff (message : Bytes) (g : Globals) :
    Faults (processTcpByeMessage message g) ↔ ¬ AllInBounds (byeStores message) := by
  rw [byeStores_inBounds_iff, processTcpByeMessage]
  cases strstr (str "FROM ") message with
  | none => simp [Faults]
  | some fromPos =>
    simp only [Option.some.injEq, forall_eq']
    exact fitsIn_bind_faults_iff (by simp [Faults]) g

/-- The handler of a line faults if and only if one of its stores is
outside its array. -/
theorem processTcpMessage_faults_iff (message : Bytes) (g : Globals) :
    Faults (processTcpMessage message g) ↔ ¬ AllInBounds (handlerStores message) := by
  unfold processTcpMessage handlerStores
  split_ifs
  · exact processTcpReplyMessage_faults_iff message g
  · exact processTcpMsgMessage_faults_iff message g
  · exact processTcpErrMessage_faults_iff message g
  · exact processTcpByeMessage_faults_iff message g
  · cases hopen : g.tcpSocket <;>
      simp [processTcpUnknown, sendTcpErrMsg, sendNetworkMsgTcp, Faults, hopen]

/-! ## The lines that fit -/

/-- The words in front of a display name and a content. -/
def fromWords : List Bytes := [str "MSG FROM ", str "ERR FROM "]

/-- What follows the word is the name and the content that `strstr` finds. -/
def FromShape (tail displayName content : Bytes) : Prop :=
  tail = displayName ++ (str " IS " ++ content) ∧
    strstr (str " IS ") tail = some displayName.length

/-- The texts of the line are no longer than the arrays they are copied
to. -/
structure TextsFit (message : Bytes) : Prop where
  reply : ∀ result content, str "REPLY " <+: message → ReplyShape message result content →
    content.length ≤ maxMessageContentLen
  content : ∀ word ∈ fromWords, ∀ tail, message = word ++ tail → ∀ displayName content,
    FromShape tail displayName content → content.length ≤ maxMessageContentLen
  /-- All that follows the word of a BYE. -/
  displayName : ∀ displayName, message = str "BYE FROM " ++ displayName →
    displayName.length ≤ maxDisplayNameLen

/-- A line starts with one word only. -/
theorem word_conflict {a b message s : Bytes} (ha : a <+: message) (hb : message = b ++ s)
    (hab : ¬ a <+: b) (hba : ¬ b <+: a) : False :=
  not_starts_with hab hba s (hb ▸ ha)

/-- The two words start neither a REPLY nor a BYE. -/
theorem fromWords_differ {word : Bytes} (h : word ∈ fromWords) :
    word.length = 9 ∧ (¬ str "REPLY " <+: word ∧ ¬ word <+: str "REPLY ") ∧
      (¬ word <+: str "BYE FROM " ∧ ¬ str "BYE FROM " <+: word) := by
  simp only [fromWords, List.mem_cons, List.not_mem_nil, or_false] at h
  rcases h with rfl | rfl <;> decide

theorem fromWords_from {word : Bytes} (h : word ∈ fromWords) :
    ∃ w, (70 : UInt8) ∉ w ∧ word = w ++ str "FROM " := by
  simp only [fromWords, List.mem_cons, List.not_mem_nil, or_false] at h
  rcases h with rfl | rfl
  · exact ⟨str "MSG ", by decide, rfl⟩
  · exact ⟨str "ERR ", by decide, rfl⟩

theorem fromIsStores_word_iff {word : Bytes} (hword : word ∈ fromWords) (tail : Bytes) :
    AllInBounds (fromIsStores (word ++ tail)) ↔
      ∀ displayName content, FromShape tail displayName content →
        content.length ≤ maxMessageContentLen := by
  obtain ⟨w, hw, rfl⟩ := fromWords_from hword
  rw [fromIsStores_inBounds_iff [], List.append_assoc, splitFromIs_from hw]
  constructor
  · rintro h displayName content ⟨htail, hpos⟩
    rw [hpos] at h
    have hfits := h _ _ rfl
    have hdrop : tail.drop (displayName.length + 4) = content := by
      rw [htail, ← List.drop_drop, List.drop_left]
      rfl
    rw [hdrop] at hfits
    exact Nat.le_of_lt_succ hfits
  · intro h displayName content hsplit
    cases hpos : strstr (str " IS ") tail with
    | none =>
      rw [hpos] at hsplit
      cases hsplit
    | some isPos =>
      rw [hpos] at hsplit
      cases hsplit
      obtain ⟨⟨rest, hrest⟩, -⟩ := (strstr_eq_some_iff _ _ _).mp hpos
      have hlen : isPos ≤ tail.length := by
        by_contra hlt
        rw [List.drop_eq_nil_of_le (by omega)] at hrest
        cases hrest
      have htail : tail = tail.take isPos ++ (str " IS " ++ tail.drop (isPos + 4)) := by
        have hdrop : tail.drop (isPos + 4) = rest := by
          rw [← List.drop_drop, ← hrest]
          rfl
        rw [hdrop, hrest, List.take_append_drop]
      refine Nat.lt_succ_of_le (h (tail.take isPos) _ ⟨htail, ?_⟩)
      rw [hpos, List.length_take, Nat.min_eq_left hlen]

theorem textsFit_from_iff {word : Bytes} (hword : word ∈ fromWords) (tail : Bytes) :
    TextsFit (word ++ tail) ↔
      ∀ displayName content, FromShape tail displayName content →
        content.length ≤ maxMessageContentLen := by
  obtain ⟨hlen, hreplyWord, hbyeWord⟩ := fromWords_differ hword
  constructor
  · intro h
    exact h.content word hword tail rfl
  · intro h
    refine ⟨fun _ _ hreply _ => ?_, fun word' hword' tail' heq => ?_, fun _ heq => ?_⟩
    · exact (word_conflict hreply rfl hreplyWord.1 hreplyWord.2).elim
    · obtain ⟨-, rfl⟩ := List.append_inj heq (hlen.trans (fromWords_differ hword').1.symm)
      exact h
    · exact (word_conflict (List.prefix_append word tail) heq hbyeWord.1 hbyeWord.2).elim

theorem textsFit_reply_iff {message : Bytes} (hreply : str "REPLY " <+: message) :
    TextsFit message ↔ ∀ result content, ReplyShape message result content →
      content.length ≤ maxMessageContentLen := by
  constructor
  · intro h result content
    exact h.reply result content hreply
  · intro h
    refine ⟨fun result content _ => h result content, fun word hword tail heq => ?_,
      fun _ heq => ?_⟩
    · obtain ⟨-, hreplyWord, -⟩ := fromWords_differ hword
      exact (word_conflict hreply heq hreplyWord.1 hreplyWord.2).elim
    · exact (word_conflict hreply heq (by decide) (by decide)).elim

theorem textsFit_bye_iff (displayName : Bytes) :
    TextsFit (str "BYE FROM " ++ displayName) ↔ displayName.length ≤ maxDisplayNameLen := by
  have hbye : str "BYE FROM " <+: str "BYE FROM " ++ displayName := List.prefix_append _ _
  constructor
  · intro h
    exact h.displayName displayName rfl
  · intro h
    refine ⟨fun _ _ hreply _ => ?_, fun word hword tail heq => ?_, fun _ heq => ?_⟩
    · exact (word_conflict hreply rfl (by decide) (by decide)).elim
    · obtain ⟨-, -, hbyeWord⟩ := fromWords_differ hword
      exact (word_conflict hbye heq hbyeWord.2 hbyeWord.1).elim
    · rwa [← List.append_cancel_left heq]

/-- For every line: every store of its handler is inside its array if and
only if the texts fit. -/
theorem stores_inBounds_iff (message : Bytes) :
    AllInBounds (handlerStores message) ↔ TextsFit message := by
  unfold handlerStores
  split_ifs with hreply hmsg herr hbye
  · rw [replyStores_inBounds_iff, textsFit_reply_iff hreply]
    simp only [scanReply_eq_some_iff]
    exact forall₃_congr fun _ _ _ => Nat.lt_succ_iff
  · obtain ⟨tail, rfl⟩ := hmsg
    rw [fromIsStores_word_iff (by decide), textsFit_from_iff (by decide)]
  · obtain ⟨tail, rfl⟩ := herr
    rw [fromIsStores_word_iff (by decide), textsFit_from_iff (by decide)]
  · obtain ⟨displayName, rfl⟩ := hbye
    have hfrom : strstr (str "FROM ") (str "BYE FROM " ++ displayName) = some 4 :=
      strstr_append (s := str "BYE ") (by decide) (str "ROM ") displayName
    rw [byeStores_inBounds_iff, textsFit_bye_iff, hfrom]
    simp only [Option.some.injEq, forall_eq']
    exact Nat.lt_succ_iff
  · simp only [allInBounds_nil, true_iff]
    refine ⟨fun _ _ hword _ => absurd hword hreply, fun word hword tail heq => ?_,
      fun displayName heq => absurd (heq ▸ List.prefix_append _ _) hbye⟩
    subst heq
    simp only [fromWords, List.mem_cons, List.not_mem_nil, or_false] at hword
    rcases hword with rfl | rfl
    · exact absurd (List.prefix_append _ _) hmsg
    · exact absurd (List.prefix_append _ _) herr

/-- The terminator of a name of 21 bytes is behind `display_name`. -/
theorem long_bye_overflows :
    let message := str "BYE FROM aaaaaaaaaaaaaaaaaaaaa"
    (⟨.displayName, 21, 0⟩ : LocalStore) ∈ handlerStores message ∧
      ¬ AllInBounds (handlerStores message) := by
  have hstore : (⟨.displayName, 21, 0⟩ : LocalStore)
      ∈ handlerStores (str "BYE FROM aaaaaaaaaaaaaaaaaaaaa") := by decide
  exact ⟨hstore, fun h => absurd (h _ hstore) (by decide)⟩

end IpkChat.Tcp
