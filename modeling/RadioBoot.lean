import RadioBoot.Board
import RadioBoot.Config.Document
import RadioBoot.Config.Store
import RadioBoot.Error
import RadioBoot.EventLog
import RadioBoot.Frame.Ring.Lemmas
import RadioBoot.Proofs.Bootloader.Advertising
import RadioBoot.Proofs.Bootloader.Phases
import RadioBoot.Proofs.Bootloader.Refinement
import RadioBoot.Proofs.Config.Register
import RadioBoot.Proofs.Event.Grammar
import RadioBoot.Proofs.Flash.Alike
import RadioBoot.Proofs.Image.Accumulator
import RadioBoot.Proofs.Image.Fragments
import RadioBoot.Proofs.Link.Channel
import RadioBoot.Proofs.Link.Drain
import RadioBoot.Proofs.Link.Duplex
import RadioBoot.Proofs.Link.Losses
import RadioBoot.Proofs.Link.Request
import RadioBoot.Proofs.Session.AllOrNothing
import RadioBoot.Proofs.Session.Conservation
import RadioBoot.Proofs.Update.Budget
import RadioBoot.Proofs.Update.Delivery
import RadioBoot.Proofs.Update.Drain
import RadioBoot.Proofs.Update.Isolation
import RadioBoot.Proofs.Update.Range
import RadioBoot.Proofs.Update.Receipts
import RadioBoot.Proofs.Update.Validity
import RadioBoot.Proofs.Update.Wait
import RadioBoot.Sim.Bench
import RadioBoot.Sim.Board
import RadioBoot.Proofs.Frame.Wire
import RadioBoot.Proofs.Config.Blocks
import RadioBoot.Proofs.Frame.Queue
import RadioBoot.Proofs.Session.Pipes
