import Cboot.ABBoot.RetryRuns
import Cboot.ABBoot.Rotation
import Cboot.BlUpdate.BlobBounds
import Cboot.BlUpdate.Frame
import Cboot.BlUpdate.Order
import Cboot.BlUpdate.Sequence
import Cboot.BlockDev.Ranges
import Cboot.BlockDev.Writing
import Cboot.Cbo.IpInfo
import Cboot.Cbo.Shell
import Cboot.Decompress.Zlib
import Cboot.Ext2.ReadInode
import Cboot.Ext4.DirLookup
import Cboot.Fastboot.Flash
import Cboot.FileManager.Read
import Cboot.Gpt.Publish
import Cboot.Graphics.RenderImage
import Cboot.Ipc.Queue
import Cboot.KernelBoot.BootCtrl
import Cboot.LinuxBoot.BootArgs
import Cboot.LinuxBoot.BootEntry
import Cboot.LinuxBoot.BootOutcome
import Cboot.LinuxBoot.ConfBuffer
import Cboot.LinuxBoot.ConfGrammar
import Cboot.LinuxBoot.CpuFloorsweeping
import Cboot.LinuxBoot.HeaderCrc
import Cboot.LinuxBoot.LoadAddr
import Cboot.LinuxBoot.LoadTrace
import Cboot.LinuxBoot.MemBlocks
import Cboot.Malloc.Runs
import Cboot.Mmu.Identity
import Cboot.Mmu.PageAccounting
import Cboot.PluginManager.BoardId
import Cboot.PluginManager.Fragment
import Cboot.Sata.Async
import Cboot.Sdmmc.Rpmb
import Cboot.Sparse.Accounts
import Cboot.Sparse.RoundTrip
import Cboot.Ufs.Async
import Cboot.UsbMsd.Read
