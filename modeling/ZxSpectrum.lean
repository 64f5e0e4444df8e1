import ZxSpectrum.Bus.Flat
import ZxSpectrum.Machine.Inspect
import ZxSpectrum.Audio.Level
import ZxSpectrum.Main
import ZxSpectrum.Proofs.ScreenRace
import ZxSpectrum.Proofs.BorderData
import ZxSpectrum.Proofs.DisplayRuns
import ZxSpectrum.Proofs.SaveRestore
import ZxSpectrum.Proofs.SnaFiles
import ZxSpectrum.Proofs.Z80Files
import ZxSpectrum.Proofs.FlatRefinement
import ZxSpectrum.Proofs.FrameClock
import ZxSpectrum.Proofs.Forgetting
import ZxSpectrum.Proofs.SafeLoading
import ZxSpectrum.Proofs.TaskSteps
import ZxSpectrum.Proofs.Requests
import ZxSpectrum.Proofs.StartNotices
import ZxSpectrum.Proofs.FixedRom
import ZxSpectrum.Proofs.Savable
import ZxSpectrum.Proofs.IndexPages
import ZxSpectrum.Proofs.IndexedBits
import ZxSpectrum.Proofs.BlockCopies
import ZxSpectrum.Proofs.PackedDecimals
import ZxSpectrum.Proofs.BlockSearches
import ZxSpectrum.Proofs.BlockPorts
import ZxSpectrum.Proofs.InstructionCosts
import ZxSpectrum.Proofs.Halting
import ZxSpectrum.Proofs.ContendedTime
import ZxSpectrum.Proofs.PageBlocks
import ZxSpectrum.Proofs.MissedFrames
import ZxSpectrum.Proofs.TapeActivity
import ZxSpectrum.Proofs.PortInputs
