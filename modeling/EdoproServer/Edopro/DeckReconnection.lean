import EdoproServer.Decks.SideDeck

namespace EdoproServer.Edopro
open Lib Decks

/-! ## The deck of a player who comes back -/

inductive ErrorMessages where
  | joinError
  | deckError
  | sideError
  | verError
  | verError2
  deriving DecidableEq, Repr

/-- What a connection is told: a line of red system chat, an error, or the status of a player. -/
inductive ClientNotice where
  | systemChat (text : String)
  | error (type : ErrorMessages)
  | playerChange (status : Nat)
  deriving DecidableEq, Repr

/-- A client as far as coming back goes. -/
structure Client where
  deck : Deck
  position : Nat
  isReconnecting : Bool
  canReconnect : Bool
  sent : List ClientNotice

def RECONNECT_SAME_DECK_MESSAGE : String :=
  "Reconnect with the same deck you were using in this match."

namespace Client

variable (client : Client)

/-- The codes of the deck the client plays with. -/
def completeCurrentDeck : List Nat :=
  (client.deck.main ++ client.deck.side ++ client.deck.extra).map Card.code

def send (notices : List ClientNotice) : Client := { client with sent := client.sent ++ notices }

def setCanReconnect (value : Bool) : Client := { client with canReconnect := value }

/-- The deck is refused and the player is shown as not ready. -/
def refuseDeck : Client :=
  (client.send
    [.systemChat RECONNECT_SAME_DECK_MESSAGE, .error .deckError,
      .playerChange (client.position <<< 4 ||| 0x0a)]).setCanReconnect false

/-- A deck sent during the duel. -/
def handleUpdateDeck (mainDeck sideDeck : List Nat) : Client :=
  let completeIncomingDeck := mainDeck ++ sideDeck
  if client.completeCurrentDeck.length ≠ completeIncomingDeck.length then client.refuseDeck
  else if !completeIncomingDeck.all (fun item => client.completeCurrentDeck.contains item) then
    client.refuseDeck
  else client.setCanReconnect true

/-- A client that shows itself ready gets the board only once its deck was taken. -/
def getsBoard : Bool := client.isReconnecting && client.canReconnect

/-- The deck the client sends is taken. -/
def accepts (mainDeck sideDeck : List Nat) : Bool :=
  (client.handleUpdateDeck mainDeck sideDeck).canReconnect

end Client

section Checks

variable {client : Client} {mainDeck sideDeck : List Nat}

@[simp] theorem canReconnect_refuseDeck : client.refuseDeck.canReconnect = false := rfl

@[simp] theorem canReconnect_setCanReconnect (value : Bool) :
    (client.setCanReconnect value).canReconnect = value := rfl

theorem accepts_iff :
    client.accepts mainDeck sideDeck = true ↔
      client.completeCurrentDeck.length = (mainDeck ++ sideDeck).length ∧
        ∀ item ∈ mainDeck ++ sideDeck, item ∈ client.completeCurrentDeck := by
  have hall : (mainDeck ++ sideDeck).all
      (fun item => client.completeCurrentDeck.contains item) = true ↔
      ∀ item ∈ mainDeck ++ sideDeck, item ∈ client.completeCurrentDeck := by
    simp only [List.all_eq_true, List.contains_iff_mem]
  rw [← hall]
  unfold Client.accepts Client.handleUpdateDeck
  by_cases hlength : client.completeCurrentDeck.length = (mainDeck ++ sideDeck).length
  · simp only [hlength, ne_eq, not_true_eq_false, if_false, true_and]
    cases (mainDeck ++ sideDeck).all (fun item => client.completeCurrentDeck.contains item) with
    | true => exact iff_of_true rfl rfl
    | false => exact iff_of_false Bool.false_ne_true Bool.false_ne_true
  · rw [if_pos hlength, canReconnect_refuseDeck]
    exact iff_of_false Bool.false_ne_true (fun h => hlength h.1)

/-- Of the decks of the right length with cards of the deck alone, those are permutations that
repeat no card more often. -/
theorem perm_iff_of_accepts (h : client.accepts mainDeck sideDeck = true) :
    client.completeCurrentDeck.Perm (mainDeck ++ sideDeck) ↔
      ∀ code, (mainDeck ++ sideDeck).count code ≤ client.completeCurrentDeck.count code := by
  obtain ⟨hlength, -⟩ := accepts_iff.mp h
  constructor
  · intro hperm code
    exact (hperm.count_eq code).ge
  · intro hcounts
    have hsub : List.Subperm (mainDeck ++ sideDeck) client.completeCurrentDeck :=
      List.subperm_ext_iff.mpr (fun code _ => hcounts code)
    exact (hsub.perm_of_length_le hlength.le).symm

theorem accepts_of_perm (h : client.completeCurrentDeck.Perm (mainDeck ++ sideDeck)) :
    client.accepts mainDeck sideDeck = true :=
  accepts_iff.mpr ⟨h.length_eq, fun _ hin => h.mem_iff.mpr hin⟩

theorem isSideDeckValid_iff_perm :
    client.deck.isSideDeckValid mainDeck sideDeck = true ↔
      client.completeCurrentDeck.Perm (mainDeck ++ sideDeck) :=
  client.deck.isSideDeckValid_iff

end Checks

/-- Both checks tell the permutations of the registered deck and no others. -/
structure ComparesMultisets (client : Client) (mainDeck sideDeck : List Nat) : Prop where
  reconnect : client.accepts mainDeck sideDeck = true ↔
    (mainDeck ++ sideDeck).Perm client.completeCurrentDeck
  siding : client.deck.isSideDeckValid mainDeck sideDeck = true ↔
    (mainDeck ++ sideDeck).Perm client.completeCurrentDeck
  agree : client.accepts mainDeck sideDeck = client.deck.isSideDeckValid mainDeck sideDeck

/-- The check of a player who comes back compares multisets unless a submission of the right length
has registered cards alone and one of them more often than the deck. -/
theorem reconnect_deck_check (client : Client) (mainDeck sideDeck : List Nat) :
    ComparesMultisets client mainDeck sideDeck ↔
      client.completeCurrentDeck.length ≠ (mainDeck ++ sideDeck).length ∨
        (∃ item ∈ mainDeck ++ sideDeck, item ∉ client.completeCurrentDeck) ∨
        ∀ code, (mainDeck ++ sideDeck).count code ≤ client.completeCurrentDeck.count code := by
  have hiff : ComparesMultisets client mainDeck sideDeck ↔
      (client.accepts mainDeck sideDeck = true →
        client.completeCurrentDeck.Perm (mainDeck ++ sideDeck)) := by
    constructor
    · intro h haccepted
      exact (h.reconnect.mp haccepted).symm
    · intro h
      have hreconnect : client.accepts mainDeck sideDeck = true ↔
          client.completeCurrentDeck.Perm (mainDeck ++ sideDeck) := ⟨h, accepts_of_perm⟩
      exact {
        reconnect := hreconnect.trans List.perm_comm
        siding := isSideDeckValid_iff_perm.trans List.perm_comm
        agree := Bool.eq_iff_iff.mpr (hreconnect.trans isSideDeckValid_iff_perm.symm) }
  rw [hiff]
  by_cases haccepted : client.accepts mainDeck sideDeck = true
  · obtain ⟨hlength, hmember⟩ := accepts_iff.mp haccepted
    have hnoForeign : ¬ ∃ item ∈ mainDeck ++ sideDeck, item ∉ client.completeCurrentDeck := by
      intro ⟨item, hin, hforeign⟩
      exact hforeign (hmember item hin)
    simp only [haccepted, forall_const, hlength, ne_eq, not_true_eq_false, hnoForeign, false_or]
    exact perm_iff_of_accepts haccepted
  · have hrefused : client.completeCurrentDeck.length ≠ (mainDeck ++ sideDeck).length ∨
        ∃ item ∈ mainDeck ++ sideDeck, item ∉ client.completeCurrentDeck := by
      rw [accepts_iff, not_and_or] at haccepted
      rcases haccepted with hlength | hforeign
      · exact Or.inl hlength
      · exact Or.inr (by simpa only [not_forall, exists_prop] using hforeign)
    refine iff_of_true (fun h => absurd h haccepted) ?_
    rcases hrefused with hlength | hforeign
    · exact Or.inl hlength
    · exact Or.inr (Or.inl hforeign)

/-- A player with two cards of one code and one of another. -/
def threeCardClient : Client :=
  { deck :=
      { main := [⟨0, 1, 0x21, 3⟩, ⟨0, 1, 0x21, 3⟩, ⟨0, 2, 0x21, 3⟩]
        side := []
        extra := []
        banList := ⟨[], [], [], [], .empty, .empty, none, false⟩
        deckRules := ⟨40, 60, 0, 15, 0, 15, .all, 0⟩ }
    position := 0
    isReconnecting := true
    canReconnect := false
    sent := [] }

/-- One copy of the first card and two of the second are taken for the deck of that player. -/
theorem reconnect_deck_check_fails :
    ¬ ∀ (client : Client) (mainDeck sideDeck : List Nat),
        ComparesMultisets client mainDeck sideDeck := by
  intro hall
  have hagree := (hall threeCardClient [1, 2, 2] []).agree
  exact absurd hagree (by decide)

end EdoproServer.Edopro
